import Lightspeed.Harness.Waits

/-!
# The ledger of promises

The settled promises are listed once each; a promise of a run that is pending names the active run; and
a closed session has no pending promise. An id is minted at or above the base of the batch or code call
that mints it, and the promises that are gone from the state were numbered below every base that is in
use: so no id is minted twice, as long as a batch starts with a number left to mint.
-/

namespace Lightspeed.Harness

open Lib

variable {sessionId : SessionId} {base s t u : CoreAgentState} {input : DriveInput}
  {entry : CoreAgentEntry} {log : List CoreAgentEntry} {proposals : List CoreAgentEventProposal}
  {n ms : Nat} {id : PromiseId} {promise : Promise}

/-! ## Settled promises -/

/-- The promises of a state are in order: each stands under its own id, and those that are terminal are
listed as settled, once. -/
structure SettledInv (s : CoreAgentState) : Prop where
  named : ∀ id promise, s.promises.promises.get? id = some promise → promise.promiseId = id
  once : s.promises.settled.Nodup
  exact : ∀ id, id ∈ s.promises.settled ↔
    ∃ promise, s.promises.promises.get? id = some promise ∧ promise.status.isTerminal = true

theorem settledInv_init : SettledInv CoreAgentState.new where
  named := nofun
  once := .nil
  exact := by
    intro id
    constructor
    · nofun
    · rintro ⟨_, ⟨⟩, -⟩

/-- A promise is stored that is not terminal, where none or a pending one stood. -/
theorem SettledInv.store (h : SettledInv s)
    (hpromises : t.promises.promises = s.promises.promises.insert id promise)
    (hsettled : t.promises.settled = s.promises.settled) (hid : promise.promiseId = id)
    (hpending : promise.status = .pending) (hfresh : id ∉ s.promises.settled) : SettledInv t where
  named := by
    intro other stored hget
    rw [hpromises, OrdMap.get?_insert] at hget
    split_ifs at hget with heq
    · cases hget
      exact hid.trans heq
    · exact h.named other stored hget
  once := hsettled ▸ h.once
  exact := by
    intro other
    rw [hsettled, hpromises, h.exact other, OrdMap.get?_insert]
    split_ifs with heq
    · subst heq
      constructor
      · exact fun hterminal => absurd ((h.exact id).mpr hterminal) hfresh
      · rintro ⟨_, ⟨⟩, hterminal⟩
        rw [hpending] at hterminal
        cases hterminal
    · exact Iff.rfl

/-- A pending promise is settled. -/
theorem SettledInv.settle (h : SettledInv s) {old : Promise}
    (hpromises : t.promises = s.promises.settle id promise)
    (hget : s.promises.promises.get? id = some old) (hpending : old.status = .pending)
    (hid : promise.promiseId = old.promiseId) (hterminal : promise.status.isTerminal = true) :
    SettledInv t := by
  have hfresh : id ∉ s.promises.settled := by
    intro hmem
    obtain ⟨stored, hstored, hdone⟩ := (h.exact id).mp hmem
    obtain rfl : old = stored := Option.mem_unique hget hstored
    rw [hpending] at hdone
    cases hdone
  refine ⟨?_, ?_, ?_⟩ <;> rw [hpromises]
  · intro other stored hstored
    simp only [PromiseComponentState.settle, OrdMap.get?_insert] at hstored
    split_ifs at hstored with heq
    · cases hstored
      rw [hid, ← heq]
      exact h.named id old hget
    · exact h.named other stored hstored
  · exact h.once.append (List.nodup_singleton _) fun other hother hlast =>
      hfresh (List.mem_singleton.mp hlast ▸ hother)
  · intro other
    simp only [PromiseComponentState.settle, OrdMap.get?_insert, List.mem_append,
      List.mem_singleton, h.exact other]
    split_ifs with heq
    · subst heq
      simp [hterminal]
    · simp [Ne.symm heq]

/-- Pruning drops settled promises from the list and from the state. -/
theorem SettledInv.prune (h : SettledInv s)
    (hpromises : t.promises = (pruneTerminalPromises s).promises) : SettledInv t := by
  let dropped := s.promises.settled.take (s.promises.settled.length - maxRetainedTerminalPromises)
  have hget : ∀ id promise, t.promises.promises.get? id = some promise ↔
      s.promises.promises.get? id = some promise ∧ id ∉ dropped := by
    intro id promise
    rw [hpromises]
    simp [pruneTerminalPromises, CoreAgentState.setPromises, OrdMap.get?_filter,
      Option.filter_eq_some_iff, dropped]
  have hsettled : t.promises.settled =
      s.promises.settled.drop (s.promises.settled.length - maxRetainedTerminalPromises) := by
    simp only [hpromises, pruneTerminalPromises, CoreAgentState.setPromises]
  refine ⟨fun id promise hstored => h.named id promise ((hget id promise).mp hstored).1, ?_, ?_⟩
  · rw [hsettled]
    exact h.once.sublist (List.drop_sublist _ _)
  · intro id
    have hmem : id ∈ t.promises.settled ↔ id ∈ s.promises.settled ∧ id ∉ dropped := by
      rw [hsettled]
      constructor
      · intro hid
        refine ⟨List.mem_of_mem_drop hid, fun htaken => ?_⟩
        exact List.disjoint_take_drop h.once le_rfl htaken hid
      · rintro ⟨hid, hnot⟩
        rw [← List.take_append_drop (s.promises.settled.length - maxRetainedTerminalPromises)
          s.promises.settled, List.mem_append] at hid
        exact hid.resolve_left hnot
    rw [hmem, h.exact id]
    constructor
    · rintro ⟨⟨promise, hstored, hterminal⟩, hnot⟩
      exact ⟨promise, (hget id promise).mpr ⟨hstored, hnot⟩, hterminal⟩
    · rintro ⟨promise, hstored, hterminal⟩
      obtain ⟨hold, hnot⟩ := (hget id promise).mp hstored
      exact ⟨⟨promise, hold, hterminal⟩, hnot⟩

theorem settled_promise {event : PromiseEvent} (h : SettledInv s)
    (happly : applyPromiseEvent s event = .ok t) : SettledInv t := by
  have hfresh : ∀ id promise, s.promises.promises.get? id = some promise →
      promise.status = .pending → id ∉ s.promises.settled := by
    intro id promise hget hpending hmem
    obtain ⟨stored, hstored, hdone⟩ := (h.exact id).mp hmem
    obtain rfl : promise = stored := Option.mem_unique hget hstored
    rw [hpending] at hdone
    cases hdone
  cases event with
  | created promise =>
    obtain ⟨hpending, hnew, -, rfl⟩ := promiseCreated_eq_ok.mp happly
    refine h.store rfl rfl rfl hpending fun hmem => ?_
    obtain ⟨stored, hstored, -⟩ := (h.exact _).mp hmem
    rw [OrdMap.contains_iff.mpr ⟨stored, hstored⟩] at hnew
    cases hnew
  | resolved promiseId payloadRef =>
    obtain ⟨promise, hget, hpending, rfl⟩ := promiseResolved_eq_ok.mp happly
    exact h.settle rfl hget hpending rfl rfl
  | failed promiseId errorRef =>
    obtain ⟨promise, hget, hpending, rfl⟩ := promiseFailed_eq_ok.mp happly
    exact h.settle rfl hget hpending rfl rfl
  | cancelled promiseId =>
    obtain ⟨promise, hget, hpending, rfl⟩ := promiseCancelled_eq_ok.mp happly
    exact h.settle rfl hget hpending rfl rfl
  | detached promiseId =>
    obtain ⟨promise, hget, hpending, rfl⟩ := promiseDetached_eq_ok.mp happly
    exact h.store rfl rfl (h.named promiseId promise hget) hpending (hfresh _ _ hget hpending)

/-- Every event keeps the settled promises in order. -/
theorem promises_step (hinv : EntriesInv s) (h : SettledInv s) (happly : applyEvent s entry = .ok t) :
    SettledInv t := by
  have hsame : t.promises = s.promises → SettledInv t := by
    intro heq
    refine ⟨?_, ?_, ?_⟩ <;> rw [heq]
    · exact h.named
    · exact h.once
    · exact h.exact
  cases hpromise : entry.event.isPromise with
  | true =>
    obtain ⟨-, m, hm, rfl⟩ := applyEvent_eq_ok.mp happly
    cases hevent : entry.event with
    | promise event =>
      simp only [applyEventKind, hevent] at hm
      have hsettled := settled_promise h hm
      exact ⟨hsettled.named, hsettled.once, hsettled.exact⟩
    | _ => rw [hevent] at hpromise; cases hpromise
  | false =>
    cases hprune : entry.event.mayPrune with
    | true => exact h.prune (applyEvent_prunes hprune happly)
    | false => exact hsame (applyEvent_promises hinv hpromise hprune happly)

/-! ## Bases -/

/-- A base that an open batch or an open code call mints from. -/
def Reserved (s : CoreAgentState) (n : Nat) : Prop :=
  (∃ run, s.runs.active = some run ∧ ∃ batch ∈ run.toolBatches.values, batch.promiseIdBase = n) ∨
    ∃ scope ∈ s.codeTools.scopes.values, ∃ call ∈ scope.calls.values,
      call.status.isTerminal = false ∧ call.promiseIdBase = n

/-- The batches and the code calls are as they were. -/
theorem Reserved.of_same (h : Reserved t n) (hscopes : t.codeTools = s.codeTools)
    (hactive : ∀ b, t.runs.active = some b → b.Workless ∨
      ∃ a, s.runs.active = some a ∧ a.SameWork b) : Reserved s n := by
  rcases h with ⟨b, hb, batch, hbatch, hbase⟩ | ⟨scope, hscope, hcall⟩
  · rcases hactive b hb with hnone | ⟨a, ha, hwork⟩
    · rw [hnone.batches] at hbatch
      cases hbatch
    · exact .inl ⟨a, ha, batch, hwork.batches ▸ hbatch, hbase⟩
  · exact .inr ⟨scope, hscopes ▸ hscope, hcall⟩

/-- The calls of a batch change, and its base does not. -/
theorem Reserved.of_setBatchCalls {run : ActiveRun} {batchId : ToolBatchId}
    {calls : List ToolCallState} (hactive : s.runs.active = some run)
    (h : Reserved (s.setActive (setBatchCalls run batchId calls)) n) : Reserved s n := by
  rcases h with ⟨b, ⟨⟩, batch, hbatch, hbase⟩ | hcall
  · rcases mem_values_modify hbatch with hold | ⟨old, hold, rfl⟩
    · exact .inl ⟨run, hactive, batch, hold, hbase⟩
    · exact .inl ⟨run, hactive, old, OrdMap.mem_values.mpr ⟨_, hold⟩, hbase⟩
  · exact .inr hcall

/-- A code call that was open takes another status, and its base does not change. -/
theorem Reserved.of_setCodeCallStatus {origin : CodeToolOrigin} {call : CodeToolCall}
    {status : CodeToolCallStatus} (hcall : codeToolCall s origin = some call)
    (hopen : call.status.isTerminal = false) (h : Reserved (setCodeCallStatus s origin status) n) :
    Reserved s n := by
  rcases h with hbatch | ⟨scope, hscope, call', hcall', hopen', hbase⟩
  · exact .inl hbatch
  · obtain ⟨old, hold, hget⟩ := Option.bind_eq_some_iff.mp hcall
    rcases mem_values_modify hscope with hscope | ⟨old', hold', rfl⟩
    · exact .inr ⟨scope, hscope, call', hcall', hopen', hbase⟩
    · obtain rfl : old = old' := Option.mem_unique hold hold'
      have hmem : old ∈ s.codeTools.scopes.values := OrdMap.mem_values.mpr ⟨_, hold⟩
      rcases mem_values_modify hcall' with hcall' | ⟨call'', hget', rfl⟩
      · exact .inr ⟨old, hmem, call', hcall', hopen', hbase⟩
      · obtain rfl : call = call'' := Option.mem_unique hget hget'
        exact .inr ⟨old, hmem, call, OrdMap.mem_values.mpr ⟨_, hget⟩, hopen, hbase⟩

/-- A planning step that starts a batch when no promise number is left. -/
def StartsExhausted (base : CoreAgentState) (input : DriveInput) : Prop :=
  StartsBatch base input ∧ u64Bound - 1 ≤ base.idCursors.lastPromiseId

theorem reserved_tool {event : ToolEvent} (hmeet : ¬ StartsExhausted base input)
    (hknew : Knew base input s (.tool event))
    (hprune : (CoreAgentEvent.tool event).mayPrune = false)
    (happly : applyToolEvent s event = .ok t) (h : Reserved t n) :
    Reserved s n ∨ s.idCursors.lastPromiseId < n := by
  cases event with
  | batchStarted runId turnId batchId revision calls =>
    obtain ⟨run, _, _, _, hactive, -, -, -, -, -, -, -, -, -, -, -, -, -, -, -, -, -, rfl⟩ :=
      batchStarted_eq_ok.mp happly
    obtain ⟨rfl, hstarts⟩ := hknew
    rcases h with ⟨b, ⟨⟩, batch, hbatch, hbase⟩ | hcall
    · rcases mem_values_insert hbatch with rfl | hold
      · -- The new base is the next number, which the condition says there is.
        have hroom : s.idCursors.lastPromiseId < u64Bound - 1 :=
          not_le.mp fun hle => hmeet ⟨hstarts, hle⟩
        refine .inr (hbase ▸ ?_)
        change s.idCursors.lastPromiseId < min (s.idCursors.lastPromiseId + 1) (u64Bound - 1)
        exact lt_min (Nat.lt_succ_self _) hroom
      · exact .inl (.inl ⟨run, hactive, batch, hold, hbase⟩)
    · exact .inl (.inr hcall)
  | callStarted runId turnId batchId callId toolName argumentsRef =>
    obtain ⟨run, _, _, _, hactive, -, -, -, -, -, -, -, -, -, -, -, -, -, -, rfl⟩ :=
      callStarted_eq_ok.mp happly
    exact .inl (h.of_setBatchCalls hactive)
  | callCompleted runId turnId batchId result =>
    obtain ⟨run, _, _, hactive, -, -, -, -, -, -, -, -, rfl⟩ := callCompleted_eq_ok.mp happly
    exact .inl (h.of_setBatchCalls hactive)
  | batchParked runId turnId batchId suspension =>
    obtain ⟨run, _, hactive, -, -, -, -, -, -, -, -, -, -, rfl⟩ := batchParked_eq_ok.mp happly
    rcases h with ⟨b, ⟨⟩, hbatch⟩ | hcall
    · exact .inl (.inl ⟨run, hactive, hbatch⟩)
    · exact .inl (.inr hcall)
  | batchUnparked runId turnId batchId =>
    obtain ⟨run, _, hactive, -, -, -, -, -, -, rfl⟩ := batchUnparked_eq_ok.mp happly
    rcases h with ⟨b, ⟨⟩, hbatch⟩ | hcall
    · exact .inl (.inl ⟨run, hactive, hbatch⟩)
    · exact .inl (.inr hcall)
  | batchCompleted runId turnId batchId => cases hprune

theorem reserved_codeTool {event : CodeToolEvent} (happly : applyCodeToolEvent s event = .ok t)
    (h : Reserved t n) : Reserved s n ∨ s.idCursors.lastPromiseId < n := by
  cases event with
  | scopeOpened scope =>
    obtain ⟨-, -, rfl⟩ := scopeOpened_eq_ok.mp happly
    rcases h with hbatch | ⟨scope', hscope, call, hcall, hopen⟩
    · exact .inl (.inl hbatch)
    · rcases mem_values_insert hscope with rfl | hscope
      · cases hcall
      · exact .inl (.inr ⟨scope', hscope, call, hcall, hopen⟩)
  | callAdmitted call first =>
    obtain ⟨admitted, last, -, -, hfirst, -, rfl⟩ := callAdmitted_eq_ok.mp happly
    have hnext : s.idCursors.lastPromiseId < first := by
      unfold checkedAdd64 at hfirst
      split_ifs at hfirst
      cases hfirst
      exact Nat.lt_succ_self _
    rcases h with hbatch | ⟨scope, hscope, call', hcall', hopen, hbase⟩
    · exact .inl (.inl hbatch)
    · rcases mem_values_modify hscope with hscope | ⟨old, hold, rfl⟩
      · exact .inl (.inr ⟨scope, hscope, call', hcall', hopen, hbase⟩)
      · rcases mem_values_insert hcall' with rfl | hcall'
        · exact .inr (hbase ▸ hnext)
        · exact .inl (.inr ⟨old, OrdMap.mem_values.mpr ⟨_, hold⟩, call', hcall', hopen, hbase⟩)
  | callCompleted origin result =>
    obtain ⟨call, hcall, -, hopen, rfl⟩ := codeCallCompleted_eq_ok.mp happly
    exact .inl (h.of_setCodeCallStatus hcall hopen)
  | callDeferred origin suspension =>
    obtain ⟨call, hcall, hpending, -, rfl⟩ := codeCallDeferred_eq_ok.mp happly
    exact .inl (h.of_setCodeCallStatus hcall (by rw [hpending]; rfl))
  | scopeClosed executionId =>
    obtain ⟨-, rfl⟩ := scopeClosed_eq_ok.mp happly
    rcases h with hbatch | ⟨scope, hscope, call, hcall, hopen⟩
    · exact .inl (.inl hbatch)
    · rcases mem_values_modify hscope with hscope | ⟨old, hold, rfl⟩
      · exact .inl (.inr ⟨scope, hscope, call, hcall, hopen⟩)
      · exact .inl (.inr ⟨old, OrdMap.mem_values.mpr ⟨_, hold⟩, call, hcall, hopen⟩)

/-- A base in use was in use before, or is above every number that was minted. -/
theorem reserved_step (hmeet : ¬ StartsExhausted base input) (hinv : Inv s)
    (hw : Warrant base input s entry) (hprune : entry.event.mayPrune = false)
    (happly : applyEvent s entry = .ok t) (h : Reserved t n) :
    Reserved s n ∨ s.idCursors.lastPromiseId < n := by
  have hknew := hw.knew
  obtain ⟨-, m, hm, rfl⟩ := applyEvent_eq_ok.mp happly
  have h' : Reserved m n := h
  cases applyEventKind_moves hm with
  | run heq hm =>
    rw [heq] at hprune
    exact .inl (h'.of_same (applyRunEvent_work hprune hm).2.1 (run_sameWork hm))
  | approval heq hm =>
    obtain ⟨_, _, -, -, hframe⟩ := applyApprovalEvent_moves hm
    exact .inl (h'.of_same (by rw [hframe]; rfl) fun b hb => .inr (approval_sameWork hm b hb))
  | turn heq hm =>
    obtain ⟨_, _, -, -, -, -, -, hframe⟩ := applyTurnEvent_frame hm
    exact .inl (h'.of_same (by rw [hframe]; rfl) fun b hb => .inr (turn_sameWork hm b hb))
  | context heq hm =>
    have hframe := applyContextEvent_frame hinv.entries hm
    refine .inl (h'.of_same (by rw [hframe.state]) fun b hb => ?_)
    obtain ⟨a, ha, hkept⟩ := hframe.active b hb
    exact .inr ⟨a, ha, by rw [hkept.run], by rw [hkept.run]⟩
  | tool heq hm => exact reserved_tool hmeet (heq ▸ hknew) (heq ▸ hprune) hm h'
  | rests hspares hruns hcontext hcursors =>
    have hsame : m.codeTools = s.codeTools → Reserved s n ∨ s.idCursors.lastPromiseId < n := by
      intro hscopes
      exact .inl (h'.of_same hscopes fun b hb => .inr ⟨b, hruns ▸ hb, rfl, rfl⟩)
    cases applyEventKind_work hinv.entries hm with
    | prunes hprunes => rw [hprunes] at hprune; cases hprune
    | promise heq hm => exact hsame (by rw [applyPromiseEvent_frame hm])
    | codeTool heq hm => exact reserved_codeTool hm h'
    | workflowTool heq hm => exact hsame (by rw [applyWorkflowToolEvent_frame hm])
    | rests hpromises hscopes => exact hsame hscopes

/-- Pruning comes when no base is in use. -/
theorem not_reserved_of_prune (hinv : Inv t) (hprune : entry.event.mayPrune = true)
    (happly : applyEvent s entry = .ok t) : ¬ Reserved t n := by
  have hidle : t.ForActive fun run => run.activeToolBatchId = none := batch_of_mayPrune hprune happly
  rintro (⟨run, hactive, batch, hbatch, -⟩ | ⟨scope, hscope, call, hcall, hopen, -⟩)
  · have hnone := (hinv.run run hactive).toolBatches_of_none (hidle run hactive)
    obtain ⟨id, hget⟩ := OrdMap.mem_values.mp hbatch
    have hkey : id ∈ run.toolBatches.keys := OrdMap.mem_keys.mpr ⟨batch, hget⟩
    rw [hnone] at hkey
    cases hkey
  · have hterminal := hinv.code.none_open (parked_of_mayPrune hinv hprune happly) scope hscope call hcall
    rw [hopen] at hterminal
    cases hterminal

/-! ## Minted promises -/

/-- The promises that a log creates, in order. -/
def createdPromises (log : List CoreAgentEntry) : List PromiseId :=
  log.filterMap fun entry => entry.event.createdId

theorem createdPromises_snoc (log : List CoreAgentEntry) (entry : CoreAgentEntry) :
    createdPromises (log ++ [entry]) = createdPromises log ++ entry.event.createdId.toList := by
  cases hcreated : entry.event.createdId <;> simp [createdPromises, hcreated]

/-- The numbers that were minted are counted, and those of promises that are gone are below every base
in use. -/
structure MintedInv (s : CoreAgentState) (log : List CoreAgentEntry) : Prop where
  counted : ∀ id ∈ createdPromises log, id.number ≤ s.idCursors.lastPromiseId
  gone : ∀ id ∈ createdPromises log, s.promises.promises.contains id = false →
    ∀ n, Reserved s n → id.number < n

theorem mintedInv_init : MintedInv CoreAgentState.new [] := ⟨nofun, nofun⟩

theorem lastPromiseId_promise {event : PromiseEvent} (h : applyPromiseEvent s event = .ok t) :
    s.idCursors.lastPromiseId ≤ t.idCursors.lastPromiseId := by
  cases event with
  | created promise =>
    obtain ⟨-, -, -, rfl⟩ := promiseCreated_eq_ok.mp h
    exact le_max_left _ _
  | resolved promiseId payloadRef =>
    obtain ⟨_, -, -, rfl⟩ := promiseResolved_eq_ok.mp h
    exact le_rfl
  | failed promiseId errorRef =>
    obtain ⟨_, -, -, rfl⟩ := promiseFailed_eq_ok.mp h
    exact le_rfl
  | cancelled promiseId =>
    obtain ⟨_, -, -, rfl⟩ := promiseCancelled_eq_ok.mp h
    exact le_rfl
  | detached promiseId =>
    obtain ⟨_, -, -, rfl⟩ := promiseDetached_eq_ok.mp h
    exact le_rfl

theorem lastPromiseId_codeTool {event : CodeToolEvent} (h : applyCodeToolEvent s event = .ok t) :
    s.idCursors.lastPromiseId ≤ t.idCursors.lastPromiseId := by
  cases event with
  | scopeOpened scope =>
    obtain ⟨-, -, rfl⟩ := scopeOpened_eq_ok.mp h
    exact le_rfl
  | callAdmitted call first =>
    obtain ⟨_, last, -, -, hfirst, hlast, rfl⟩ := callAdmitted_eq_ok.mp h
    unfold checkedAdd64 at hfirst hlast
    split_ifs at hfirst hlast
    cases hfirst
    cases hlast
    change s.idCursors.lastPromiseId ≤ s.idCursors.lastPromiseId + 1 + (codeToolPromiseSlots - 1)
    omega
  | callCompleted origin result =>
    obtain ⟨_, -, -, -, rfl⟩ := codeCallCompleted_eq_ok.mp h
    exact le_rfl
  | callDeferred origin suspension =>
    obtain ⟨_, -, -, -, rfl⟩ := codeCallDeferred_eq_ok.mp h
    exact le_rfl
  | scopeClosed executionId =>
    obtain ⟨-, rfl⟩ := scopeClosed_eq_ok.mp h
    exact le_rfl

/-- The promise counter only moves up. -/
theorem lastPromiseId_step (hinv : EntriesInv s) (h : applyEvent s entry = .ok t) :
    s.idCursors.lastPromiseId ≤ t.idCursors.lastPromiseId := by
  obtain ⟨-, m, hm, rfl⟩ := applyEvent_eq_ok.mp h
  change s.idCursors.lastPromiseId ≤ m.idCursors.lastPromiseId
  cases applyEventKind_moves hm with
  | run heq hm => rw [applyRunEvent_frame hm]
  | approval heq hm =>
    obtain ⟨_, _, -, -, hframe⟩ := applyApprovalEvent_moves hm
    rw [hframe]
  | turn heq hm =>
    obtain ⟨_, _, -, -, -, -, -, hframe⟩ := applyTurnEvent_frame hm
    rw [hframe]
  | context heq hm => rw [(applyContextEvent_frame hinv hm).cursors]
  | tool heq hm =>
    obtain ⟨_, _, -, -, hframe⟩ := applyToolEvent_frame hm
    rw [hframe]
  | rests hspares =>
    cases applyEventKind_work hinv hm with
    | prunes hprune => cases (mayPrune_of_sparesRuns hspares).symm.trans hprune
    | promise heq hm => exact lastPromiseId_promise hm
    | codeTool heq hm => exact lastPromiseId_codeTool hm
    | workflowTool heq hm => rw [applyWorkflowToolEvent_frame hm]
    | rests hpromises hscopes hbound hstarted hcursor => rw [hcursor]

/-- A promise that is created is counted, and in the state. -/
theorem created_counted (hcreated : entry.event.createdId = some id)
    (h : applyEvent s entry = .ok t) :
    id.number ≤ t.idCursors.lastPromiseId ∧ t.promises.promises.contains id = true := by
  obtain ⟨-, m, hm, rfl⟩ := applyEvent_eq_ok.mp h
  change id.number ≤ m.idCursors.lastPromiseId ∧ m.promises.promises.contains id = true
  cases hevent : entry.event with
  | promise event =>
    simp only [applyEventKind, hevent] at hm
    rw [hevent] at hcreated
    cases event with
    | created promise =>
      cases hcreated
      obtain ⟨-, -, -, rfl⟩ := promiseCreated_eq_ok.mp hm
      exact ⟨le_max_right _ _, OrdMap.contains_iff.mpr ⟨promise, OrdMap.get?_insert_self _ _ _⟩⟩
    | _ => cases hcreated
  | _ => rw [hevent] at hcreated; cases hcreated

/-- Every warranted event of a step that meets the condition keeps the numbers below the bases. -/
theorem minted_step (hmeet : ¬ StartsExhausted base input) (hinv : Inv s) (h : MintedInv s log)
    (hw : Warrant base input s entry) (happly : applyEvent s entry = .ok t) :
    MintedInv t (log ++ [entry]) := by
  have hlast := lastPromiseId_step hinv.entries happly
  refine ⟨fun id hid => ?_, fun id hid hgone n hreserved => ?_⟩
  · rw [createdPromises_snoc] at hid
    rcases List.mem_append.mp hid with hid | hid
    · exact (h.counted id hid).trans hlast
    · exact (created_counted (Option.mem_toList.mp hid) happly).1
  · rw [createdPromises_snoc] at hid
    cases hprune : entry.event.mayPrune with
    | true => exact absurd hreserved (not_reserved_of_prune (inv_step hinv hw happly) hprune happly)
    | false =>
      have hid' : id ∈ createdPromises log := by
        refine (List.mem_append.mp hid).resolve_right fun hnew => ?_
        rw [(created_counted (Option.mem_toList.mp hnew) happly).2] at hgone
        cases hgone
      rcases reserved_step hmeet hinv hw hprune happly hreserved with hold | hlt
      · refine h.gone id hid' (Bool.eq_false_iff.mpr fun hthere => ?_) n hold
        rw [applyEvent_contains hinv.entries hprune happly hthere] at hgone
        cases hgone
      · exact (h.counted id hid').trans_lt hlt

/-! ## What an append mints -/

/-- Whether an event creates a promise or closes the session. -/
def CoreAgentEvent.createsOrCloses : CoreAgentEvent → Bool
  | .promise (.created _) | .lifecycle .closed => true
  | _ => false

theorem createdId_of_plain {event : CoreAgentEvent} (h : event.createsOrCloses = false) :
    event.createdId = none := by
  unfold CoreAgentEvent.createdId
  split
  · cases h
  · rfl

/-- Proposals of results: they end no run, do not close the session, and create promises that are new,
at or above a base in use. -/
structure Minting (s : CoreAgentState) (proposals : List CoreAgentEventProposal) : Prop where
  terminal : ∀ proposal ∈ proposals, proposal.event.terminalRunId = none
  stays : ∀ proposal ∈ proposals, proposal.event ≠ .lifecycle .closed
  once : (createdIds proposals).Nodup
  above : ∀ id ∈ createdIds proposals, s.promises.promises.contains id = false ∧
    ∃ n, Reserved s n ∧ n ≤ id.number

theorem Mintable.reserved {scope : ResultScope} (h : Mintable s scope id)
    (horigin : ∀ origin, scope.origin = some origin →
      ∃ call, codeToolCall s origin = some call ∧ call.status.isTerminal = false) :
    s.promises.promises.contains id = false ∧ ∃ n, Reserved s n ∧ n ≤ id.number := by
  obtain ⟨⟨n, hbase, hle⟩, hnew⟩ := h
  refine ⟨hnew, n, ?_, hle⟩
  unfold mintBase at hbase
  cases hscope : scope.origin with
  | none =>
    simp only [hscope, bind_eq_ok, orError_eq_ok, Except.ok.injEq] at hbase
    obtain ⟨batch, hbatch, rfl⟩ := hbase
    obtain ⟨run, hrun, hget⟩ := Option.bind_eq_some_iff.mp hbatch
    exact .inl ⟨run, (Option.filter_eq_some_iff.mp hrun).1, batch, OrdMap.mem_values.mpr ⟨_, hget⟩, rfl⟩
  | some origin =>
    simp only [hscope, bind_eq_ok, orError_eq_ok, require_eq_ok, exists_unit, Except.ok.injEq] at hbase
    obtain ⟨call, hcall, -, rfl⟩ := hbase
    obtain ⟨call', hcall', hopen⟩ := horigin origin hscope
    obtain rfl : call = call' := Option.mem_unique hcall hcall'
    obtain ⟨codeScope, hget, hget'⟩ := Option.bind_eq_some_iff.mp hcall
    exact .inr ⟨codeScope, OrdMap.mem_values.mpr ⟨_, hget⟩, call, OrdMap.mem_values.mpr ⟨_, hget'⟩,
      hopen, rfl⟩

theorem minting_of_results {scope : ResultScope} {results : List ToolCallResult}
    (horigin : ∀ origin, scope.origin = some origin →
      ∃ call, codeToolCall s origin = some call ∧ call.status.isTerminal = false)
    (h : toolCallCompletedProposals s scope results = .ok proposals) : Minting s proposals := by
  obtain ⟨hevents, honce⟩ := toolCallCompletedProposals_spec h
  refine ⟨fun proposal hmem => resultEvent_terminalRunId (hevents proposal hmem), ?_, honce, ?_⟩
  · intro proposal hmem hclosed
    have hevent := hevents proposal hmem
    rw [hclosed] at hevent
    cases hevent with
    | quiet hquiet => cases hquiet
  · intro id hid
    obtain ⟨proposal, hmem, hcreated⟩ := List.mem_filterMap.mp hid
    have hevent := hevents proposal hmem
    generalize proposal.event = event at hevent hcreated
    cases hevent with
    | quiet hquiet =>
      unfold CoreAgentEvent.createdId at hcreated
      split at hcreated
      · cases hquiet
      · cases hcreated
    | created hscope hmint =>
      cases hcreated
      exact hmint.reserved horigin
    | invoked hbatch | completed horigin | parked horigin hjoined => cases hcreated

/-- What stands around the proposals of results mints nothing. -/
theorem Minting.surround (h : Minting s proposals) (front back : List CoreAgentEventProposal)
    (hplain : ∀ proposal ∈ front ++ back, proposal.event.terminalRunId = none ∧
      proposal.event.createsOrCloses = false) : Minting s (front ++ proposals ++ back) := by
  have hnone : ∀ part ⊆ front ++ back, createdIds part = [] := by
    intro part hpart
    refine List.filterMap_eq_nil_iff.mpr fun proposal hmem => ?_
    exact createdId_of_plain (hplain proposal (hpart hmem)).2
  have hids : createdIds (front ++ proposals ++ back) = createdIds proposals := by
    rw [createdIds_append, createdIds_append, hnone front (List.subset_append_left _ _),
      hnone back (List.subset_append_right _ _), List.nil_append, List.append_nil]
  have hmem : ∀ proposal ∈ front ++ proposals ++ back,
      proposal ∈ front ++ back ∨ proposal ∈ proposals := by
    intro proposal hproposal
    simp only [List.mem_append] at hproposal ⊢
    tauto
  refine ⟨fun proposal hproposal => ?_, fun proposal hproposal hclosed => ?_, ?_, ?_⟩
  · rcases hmem proposal hproposal with hproposal | hproposal
    · exact (hplain proposal hproposal).1
    · exact h.terminal proposal hproposal
  · rcases hmem proposal hproposal with hproposal | hproposal
    · have hnot := (hplain proposal hproposal).2
      rw [hclosed] at hnot
      cases hnot
    · exact h.stays proposal hproposal hclosed
  · rw [hids]
    exact h.once
  · rw [hids]
    exact h.above

theorem createsOrCloses_of_planned {event : CoreAgentEvent} (h : event.isPlanned = true) :
    event.createsOrCloses = false := by
  cases event <;> first | rfl | cases h

/-- The proposals that an input is answered with create promises, or close the session at the end, or do
neither. -/
theorem proposed_mints (h : Proposed sessionId s input proposals) :
    Minting s proposals ∨ (∀ proposal ∈ proposals, proposal.event.createsOrCloses = false) ∨
      ∃ front, proposals = front ++ [sessionProposal (.lifecycle .closed)] ∧
        ∀ proposal ∈ front, proposal.event.createsOrCloses = false := by
  have horigin : ∀ scope : ResultScope, scope.origin = none → ∀ origin, scope.origin = some origin →
      ∃ call, codeToolCall s origin = some call ∧ call.status.isTerminal = false := by
    intro scope hnone origin hsome
    rw [hnone] at hsome
    cases hsome
  cases h with
  | quiet hquiet =>
    refine .inr (.inl fun proposal hmem => ?_)
    have hevent := (hquiet proposal hmem).1
    unfold CoreAgentEvent.createsOrCloses
    split
    · cases (show CoreAgentEvent.isQuiet _ = true from ‹proposal.event = _› ▸ hevent)
    · cases (show CoreAgentEvent.isQuiet _ = true from ‹proposal.event = _› ▸ hevent)
    · rfl
  | plan hplan => exact .inr (.inl fun _ hmem => createsOrCloses_of_planned (planned_isPlanned hplan hmem))
  | cancelRun hactive hstatus =>
    refine .inr (.inl fun proposal hmem => ?_)
    rcases mem_cancelRunProposals hmem with heq | ⟨_, heq⟩ <;> rw [heq] <;> rfl
  | decide hactive hrun hrecord hstatus hresponse hunparked =>
    refine .inr (.inl fun proposal hmem => ?_)
    rcases mem_decideProposals hunparked hmem with rfl | rfl | rfl <;> rfl
  | compact hpending hqueued hcovers =>
    refine .inr (.inl fun proposal hmem => ?_)
    rw [List.mem_singleton.mp hmem, manualCompactionRequestedProposal]
    split_ifs <;> rfl
  | close =>
    refine .inr (.inr ⟨[], rfl, ?_⟩)
    rintro proposal ⟨⟩
  | forceClose =>
    refine .inr (.inr ⟨_, rfl, fun proposal hmem => ?_⟩)
    rcases forceClose_event hmem with heq | ⟨_, _, heq⟩ | ⟨_, heq⟩ | ⟨_, heq⟩ | ⟨_, heq⟩ <;>
      rw [heq] <;> rfl
  | forceCancel hactive hclosing =>
    refine .inr (.inl fun proposal hmem => ?_)
    rcases mem_forceCancelProposals hmem with rfl | rfl <;> rfl
  | failRun hactive hfail =>
    refine .inr (.inl fun proposal hmem => ?_)
    rcases (mem_failRunProposals hfail).2 proposal hmem with ⟨_, _, heq, -⟩ | ⟨_, heq⟩ | heq <;>
      rw [heq] <;> rfl
  | unpark hactive hparked hrun hbatch hclaim hresult hmatches hcompleted =>
    have hminting := minting_of_results (horigin _ rfl) hcompleted
    refine .inl ?_
    rw [← List.append_nil (_ ++ _)]
    refine hminting.surround _ _ fun proposal hmem => ?_
    simp only [List.append_nil, List.mem_append, List.mem_map, List.mem_singleton] at hmem
    rcases hmem with ⟨id, -, rfl⟩ | rfl <;> exact ⟨rfl, rfl⟩
  | generation hactive hrun hturn =>
    refine .inr (.inl fun proposal hmem => ?_)
    rcases mem_generationProposals hmem with heq | heq | ⟨_, heq⟩ | heq <;> rw [heq] <;> rfl
  | compacted hplan hstatus =>
    refine .inr (.inl fun proposal hmem => ?_)
    simp only [List.mem_cons, List.not_mem_nil, or_false] at hmem
    rcases hmem with rfl | rfl | rfl <;> rfl
  | overflowed hplan hstatus hactive htrigger =>
    refine .inr (.inl fun proposal hmem => ?_)
    rcases mem_overflowedProposals hmem with rfl | rfl | rfl <;> rfl
  | results hmatches hproposals => exact .inl (minting_of_results (horigin _ rfl) hproposals)
  | codeResults hcall hstatus hparent hproposals =>
    refine .inl (minting_of_results (fun origin horigin => ?_) hproposals)
    cases horigin
    exact ⟨_, hcall, by rw [hstatus]; rfl⟩
  | park hactive hid hbatch hmatches hvalid hcompleted =>
    have hminting := minting_of_results (horigin _ rfl) hcompleted
    refine .inl (hminting.surround [] _ fun proposal hmem => ?_)
    rw [List.mem_singleton.mp hmem]
    exact ⟨rfl, rfl⟩
  | approve hactive hid hbatch hrequested =>
    refine .inr (.inl fun proposal hmem => ?_)
    rcases mem_approveProposals hrequested hmem with ⟨_, heq⟩ | heq <;> rw [heq] <;> rfl
  | _ => exact .inr (.inl fun proposal hmem => List.mem_singleton.mp hmem ▸ rfl)

/-! ## The promises of a run -/

/-- Every pending promise of a run names the active run. -/
def Scoped (s : CoreAgentState) : Prop :=
  ∀ id promise runId, s.promises.promises.get? id = some promise → promise.status = .pending →
    promise.scope = .run runId → ∃ run, s.runs.active = some run ∧ run.runId = runId

/-- What was pending: a promise that is pending was so before, and has left its run at most. -/
theorem applyEvent_pending (hinv : EntriesInv s) (hcreated : entry.event.createdId = none)
    (h : applyEvent s entry = .ok t) (hget : t.promises.promises.get? id = some promise)
    (hpending : promise.status = .pending) :
    ∃ old, s.promises.promises.get? id = some old ∧ old.status = .pending ∧
      (promise.scope = old.scope ∨ promise.scope = .session) := by
  cases hpromise : entry.event.isPromise with
  | false =>
    cases hprune : entry.event.mayPrune with
    | false =>
      rw [applyEvent_promises hinv hpromise hprune h] at hget
      exact ⟨promise, hget, hpending, .inl rfl⟩
    | true =>
      rw [applyEvent_prunes hprune h] at hget
      simp only [pruneTerminalPromises, CoreAgentState.setPromises, OrdMap.get?_filter,
        Option.filter_eq_some_iff] at hget
      exact ⟨promise, hget.1, hpending, .inl rfl⟩
  | true =>
    obtain ⟨-, m, hm, rfl⟩ := applyEvent_eq_ok.mp h
    have hget' : m.promises.promises.get? id = some promise := hget
    have hsettle : ∀ key settled, m.promises.promises = s.promises.promises.insert key settled →
        settled.status ≠ .pending → s.promises.promises.get? id = some promise := by
      intro key settled hpromises hstatus
      rw [hpromises, OrdMap.get?_insert] at hget'
      split_ifs at hget'
      · cases hget'
        exact absurd hpending hstatus
      · exact hget'
    cases hevent : entry.event with
    | promise event =>
      simp only [applyEventKind, hevent] at hm
      rw [hevent] at hcreated
      cases event with
      | created created => cases hcreated
      | resolved promiseId payloadRef =>
        obtain ⟨_, -, -, rfl⟩ := promiseResolved_eq_ok.mp hm
        refine ⟨promise, hsettle _ _ rfl ?_, hpending, .inl rfl⟩
        simp
      | failed promiseId errorRef =>
        obtain ⟨_, -, -, rfl⟩ := promiseFailed_eq_ok.mp hm
        refine ⟨promise, hsettle _ _ rfl ?_, hpending, .inl rfl⟩
        simp
      | cancelled promiseId =>
        obtain ⟨_, -, -, rfl⟩ := promiseCancelled_eq_ok.mp hm
        refine ⟨promise, hsettle _ _ rfl ?_, hpending, .inl rfl⟩
        simp
      | detached promiseId =>
        obtain ⟨old, hold, hstatus, rfl⟩ := promiseDetached_eq_ok.mp hm
        simp only [CoreAgentState.setPromises, OrdMap.get?_insert] at hget'
        split_ifs at hget' with heq
        · cases hget'
          exact ⟨old, heq ▸ hold, hstatus, .inr rfl⟩
        · exact ⟨promise, hget', hpending, .inl rfl⟩
    | _ => rw [hevent] at hpromise; cases hpromise

/-- Only the end of the active run takes it away. -/
theorem active_stays (hinv : EntriesInv s) (hend : entry.event.terminalRunId = none)
    (h : applyEvent s entry = .ok t) {run : ActiveRun} (hactive : s.runs.active = some run) :
    ∃ run', t.runs.active = some run' ∧ run'.runId = run.runId := by
  cases hrun : entry.event.isRun with
  | false =>
    obtain ⟨run', hactive', hsame⟩ := (applyEvent_runsFrame hinv hrun h).stays hactive
    exact ⟨run', hactive', hsame.runId⟩
  | true =>
    obtain ⟨-, m, hm, rfl⟩ := applyEvent_eq_ok.mp h
    change ∃ run', m.runs.active = some run' ∧ run'.runId = run.runId
    cases hevent : entry.event with
    | run event =>
      simp only [applyEventKind, hevent] at hm
      rw [hevent] at hend
      cases applyRunEvent_moves hm with
      | queues hqueues hsame => exact ⟨run, hsame.trans hactive, rfl⟩
      | starts hfree => rw [hfree] at hactive; cases hactive
      | ends ha hends => rw [hends] at hend; cases hend
      | _ ha =>
        obtain rfl := Option.mem_unique hactive ha
        exact ⟨_, rfl, rfl⟩
    | _ => rw [hevent] at hrun; cases hrun

/-- An event that ends no run keeps the promises of the run in order. -/
theorem scoped_step (hinv : EntriesInv s) (hend : entry.event.terminalRunId = none) (hs : Scoped s)
    (h : applyEvent s entry = .ok t) : Scoped t := by
  intro id promise runId hget hpending hscope
  cases hcreated : entry.event.createdId with
  | none =>
    obtain ⟨old, hold, hstatus, heq | heq⟩ := applyEvent_pending hinv hcreated h hget hpending
    · obtain ⟨run, hactive, hid⟩ := hs id old runId hold hstatus (heq ▸ hscope)
      obtain ⟨run', hactive', hsame⟩ := active_stays hinv hend h hactive
      exact ⟨run', hactive', hsame.trans hid⟩
    · rw [heq] at hscope
      cases hscope
  | some created =>
    obtain ⟨-, m, hm, rfl⟩ := applyEvent_eq_ok.mp h
    cases hevent : entry.event with
    | promise event =>
      simp only [applyEventKind, hevent] at hm
      rw [hevent] at hcreated
      cases event with
      | created minted =>
        obtain ⟨-, -, hopen, rfl⟩ := promiseCreated_eq_ok.mp hm
        have hget' : (s.promises.promises.insert minted.promiseId minted).get? id = some promise := hget
        rw [OrdMap.get?_insert] at hget'
        split_ifs at hget' with heq
        · cases hget'
          exact hopen runId hscope
        · exact hs id promise runId hget' hpending hscope
      | _ => cases hcreated
    | _ => rw [hevent] at hcreated; cases hcreated

/-- What is pending was so before, and has left its run at most. -/
def PendingFrom (s t : CoreAgentState) : Prop :=
  ∀ id promise, t.promises.promises.get? id = some promise → promise.status = .pending →
    ∃ old, s.promises.promises.get? id = some old ∧ old.status = .pending ∧
      (promise.scope = old.scope ∨ promise.scope = .session)

theorem PendingFrom.refl (s : CoreAgentState) : PendingFrom s s :=
  fun _ promise hget hpending => ⟨promise, hget, hpending, .inl rfl⟩

theorem PendingFrom.trans (hst : PendingFrom s t) (htu : PendingFrom t u) : PendingFrom s u := by
  intro id promise hget hpending
  obtain ⟨old, hold, hstatus, hscope⟩ := htu id promise hget hpending
  obtain ⟨older, holder, hstatus', hscope'⟩ := hst id old hold hstatus
  refine ⟨older, holder, hstatus', ?_⟩
  rcases hscope with hscope | hscope
  · rw [hscope]
    exact hscope'
  · exact .inr hscope

theorem pendingFrom_step (hinv : EntriesInv s) (hcreated : entry.event.createdId = none)
    (h : applyEvent s entry = .ok t) : PendingFrom s t :=
  fun _ _ hget hpending => applyEvent_pending hinv hcreated h hget hpending

/-- Entries that create no promise. -/
theorem pendingFrom_fold {entries : List CoreAgentEntry} (hinv : EntriesInv s)
    (hcreated : ∀ entry ∈ entries, entry.event.createdId = none)
    (h : entries.foldlM applyEvent s = .ok t) : PendingFrom s t := by
  induction entries generalizing s with
  | nil =>
    rw [List.foldlM_nil, pure_eq_ok] at h
    exact h ▸ .refl s
  | cons first rest ih =>
    obtain ⟨m, hm, h⟩ := foldlM_cons_eq_ok.mp h
    have hrest := ih (applyEvent_entriesInv hinv hm)
      (fun entry hmem => hcreated entry (List.mem_cons_of_mem _ hmem)) h
    exact (pendingFrom_step hinv (hcreated first List.mem_cons_self) hm).trans hrest

/-- A run that ends was the active one. -/
theorem active_of_terminal {runId : RunId} (hend : entry.event.terminalRunId = some runId)
    (h : applyEvent s entry = .ok t) : ∃ run, s.runs.active = some run ∧ run.runId = runId := by
  obtain ⟨-, m, hm, rfl⟩ := applyEvent_eq_ok.mp h
  cases applyEventKind_moves hm with
  | run heq hm =>
    rw [heq] at hend
    cases applyRunEvent_moves hm with
    | ends hactive hends => exact ⟨_, hactive, Option.mem_unique hends hend⟩
    | queues hqueues => cases (mayPrune_of_queues hqueues).symm.trans (mayPrune_of_terminal hend)
    | _ => cases hend
  | rests hspares => cases (mayPrune_of_sparesRuns hspares).symm.trans (mayPrune_of_terminal hend)
  | _ heq => rw [heq] at hend; cases hend

/-- A promise that is cancelled is not pending afterwards. -/
theorem not_pending_of_cancelled (hevent : entry.event = .promise (.cancelled id))
    (h : applyEvent s entry = .ok t) (hget : t.promises.promises.get? id = some promise) :
    promise.status ≠ .pending := by
  obtain ⟨-, m, hm, rfl⟩ := applyEvent_eq_ok.mp h
  simp only [applyEventKind, hevent] at hm
  obtain ⟨old, -, -, rfl⟩ := promiseCancelled_eq_ok.mp hm
  have hget' : (s.promises.promises.insert id { old with status := .cancelled }).get? id =
      some promise := hget
  rw [OrdMap.get?_insert_self] at hget'
  cases hget'
  simp

/-- The cancellations that the end of a run owes: none of the promises that they name is pending
afterwards. -/
theorem owed_fold {ids : List PromiseId} {runId : RunId} {seq : Nat} (hinv : EntriesInv s)
    (h : (entriesFrom ms seq (ids.map fun id => runProposal runId (.promise (.cancelled id)))).foldlM
      applyEvent s = .ok t) :
    PendingFrom s t ∧ ∀ id ∈ ids, ∀ promise, t.promises.promises.get? id = some promise →
      promise.status ≠ .pending := by
  induction ids generalizing s seq with
  | nil =>
    rw [List.map_nil, entriesFrom, List.foldlM_nil, pure_eq_ok] at h
    exact ⟨h ▸ .refl s, by simp⟩
  | cons first rest ih =>
    rw [List.map_cons, entriesFrom] at h
    obtain ⟨m, hm, h⟩ := foldlM_cons_eq_ok.mp h
    obtain ⟨hfrom, hdone⟩ := ih (applyEvent_entriesInv hinv hm) h
    refine ⟨(pendingFrom_step hinv rfl hm).trans hfrom, fun id hid promise hget hpending => ?_⟩
    rcases List.mem_cons.mp hid with rfl | hid
    · obtain ⟨old, hold, hstatus, -⟩ := hfrom id promise hget hpending
      exact not_pending_of_cancelled rfl hm hold hstatus
    · exact hdone id hid promise hget hpending

theorem createdId_stored (event : CoreAgentEvent) : event.stored.createdId = event.createdId := by
  cases event with
  | promise event => cases event <;> rfl
  | _ => rfl

/-- Wherever a run ends in a list of proposals, what it owes its promises follows. -/
theorem sideEffects_scoped {cancelled : List PromiseId} {seq : Nat} (hbase : SettledInv base)
    (hinv : EntriesInv s) (hfrom : PendingFrom base s) (hscoped : Scoped s)
    (hdone : ∀ id ∈ cancelled, ∀ promise, s.promises.promises.get? id = some promise →
      promise.status ≠ .pending) (hplain : ∀ proposal ∈ proposals, proposal.event.createdId = none)
    (h : (entriesFrom ms seq (runTerminalSideEffects base cancelled proposals)).foldlM applyEvent s =
      .ok t) : Scoped t := by
  induction proposals generalizing s seq cancelled with
  | nil =>
    rw [runTerminalSideEffects, entriesFrom, List.foldlM_nil, pure_eq_ok] at h
    exact h ▸ hscoped
  | cons first rest ih =>
    have hrest : ∀ proposal ∈ rest, proposal.event.createdId = none :=
      fun proposal hmem => hplain proposal (List.mem_cons_of_mem _ hmem)
    have hcreated : first.event.stored.createdId = none :=
      (createdId_stored _).trans (hplain first List.mem_cons_self)
    rw [runTerminalSideEffects] at h
    cases hend : first.event.terminalRunId with
    | none =>
      simp only [hend, entriesFrom] at h
      obtain ⟨m, hm, h⟩ := foldlM_cons_eq_ok.mp h
      have hstep : PendingFrom s m := pendingFrom_step hinv hcreated hm
      refine ih (applyEvent_entriesInv hinv hm) (hfrom.trans hstep)
        (scoped_step hinv ((terminalRunId_stored _).trans hend) hscoped hm) ?_ hrest h
      intro id hid promise hget hpending
      obtain ⟨old, hold, hstatus, -⟩ := hstep id promise hget hpending
      exact hdone id hid old hold hstatus
    | some runId =>
      simp only [hend, List.cons_append, entriesFrom, entriesFrom_append] at h
      obtain ⟨m, hm, h⟩ := foldlM_cons_eq_ok.mp h
      obtain ⟨u, hu, h⟩ := foldlM_append_eq_ok.mp h
      have hinv' : EntriesInv m := applyEvent_entriesInv hinv hm
      have hstep : PendingFrom s m := pendingFrom_step hinv hcreated hm
      obtain ⟨howed, hsettled⟩ := owed_fold hinv' hu
      -- A pending promise of the run was pending when the append was proposed, so it is owed.
      have hscoped' : Scoped u := by
        intro id promise otherId hget hpending hscope
        obtain ⟨old, hold, hstatus, hsame⟩ := (hstep.trans howed) id promise hget hpending
        have hsame' : old.scope = .run otherId := by
          rcases hsame with hsame | hsame <;> rw [hscope] at hsame
          · exact hsame.symm
          · cases hsame
        obtain ⟨run, hactive, hid⟩ := hscoped id old otherId hold hstatus hsame'
        obtain ⟨run', hactive', hid'⟩ := active_of_terminal ((terminalRunId_stored _).trans hend) hm
        obtain rfl : run = run' := Option.mem_unique hactive hactive'
        obtain rfl : runId = otherId := hid'.symm.trans hid
        obtain ⟨older, holder, hstatus', hscope'⟩ := hfrom id old hold hstatus
        refine absurd hpending (hsettled id ?_ promise hget)
        refine List.mem_filter.mpr ⟨List.mem_map.mpr ⟨older, ?_, hbase.named id older holder⟩, ?_⟩
        · simp only [PromiseComponentState.pendingForRun, PromiseComponentState.pending,
            List.mem_filter, beq_iff_eq]
          refine ⟨⟨OrdMap.mem_values.mpr ⟨id, holder⟩, hstatus'⟩, ?_⟩
          rcases hscope' with hscope' | hscope' <;> rw [hsame'] at hscope'
          · exact hscope'.symm
          · cases hscope'
        · simp only [decide_eq_true_eq]
          exact fun hmem => hdone id hmem old hold hstatus
      refine ih (fold_entriesInv hinv' hu) ((hfrom.trans hstep).trans howed) hscoped' ?_ hrest h
      intro id hid promise hget hpending
      rcases List.mem_append.mp hid with hid | hid
      · exact hsettled id hid promise hget hpending
      · obtain ⟨old, hold, hstatus, -⟩ := (hstep.trans howed) id promise hget hpending
        exact hdone id hid old hold hstatus

/-! ## Appends -/

theorem created_uncommitted (hplain : ∀ proposal ∈ proposals, proposal.event.createdId = none) :
    ∀ entry ∈ uncommitted s ms proposals, entry.event.createdId = none := by
  intro entry hentry
  rcases mem_uncommitted hentry with ⟨proposal, hproposal, heq⟩ | ⟨id, heq⟩
  · rw [heq, createdId_stored, hplain proposal hproposal]
  · rw [heq]
    rfl

/-- An append that creates no promise, or one of results. -/
theorem proposed_plain (h : Proposed sessionId s input proposals) :
    Minting s proposals ∨ ∀ proposal ∈ proposals, proposal.event.createdId = none := by
  rcases proposed_mints h with hminting | hplain | ⟨front, rfl, hplain⟩
  · exact .inl hminting
  · exact .inr fun proposal hmem => createdId_of_plain (hplain proposal hmem)
  · refine .inr fun proposal hmem => ?_
    rcases List.mem_append.mp hmem with hmem | hmem
    · exact createdId_of_plain (hplain proposal hmem)
    · exact List.mem_singleton.mp hmem ▸ rfl

/-- After every append, the pending promises of runs name the active run. -/
theorem scoped_append (hinv : EntriesInv s) (hsettled : SettledInv s) (hs : Scoped s)
    (hproposed : Proposed sessionId s input proposals)
    (hcommit : (uncommitted s ms proposals).foldlM applyEvent s = .ok t) : Scoped t := by
  rcases proposed_plain hproposed with hminting | hplain
  · let P : CoreAgentState → Prop := fun u => EntriesInv u ∧ Scoped u
    have hfold : P t := by
      refine foldlM_preserves (P := P) (fun entry hentry u v hv hu => ?_) hcommit ⟨hinv, hs⟩
      refine ⟨applyEvent_entriesInv hu.1 hv, scoped_step hu.1 ?_ hu.2 hv⟩
      rw [uncommitted_eq hminting.terminal] at hentry
      obtain ⟨proposal, hproposal, heq⟩ := mem_entriesFrom hentry
      rw [heq, terminalRunId_stored, hminting.terminal proposal hproposal]
    exact hfold.2
  · exact sideEffects_scoped hsettled hinv (.refl s) hs (by rintro id ⟨⟩) hplain hcommit

/-- A closed session has no pending promise. -/
def ClosedInv (s : CoreAgentState) : Prop :=
  s.lifecycle.status = .closed → ∀ id promise, s.promises.promises.get? id = some promise →
    promise.status ≠ .pending

/-- Only one event closes a session. -/
theorem closed_step (hinv : EntriesInv s) (hevent : entry.event ≠ .lifecycle .closed)
    (h : applyEvent s entry = .ok t) (hclosed : t.lifecycle.status = .closed) :
    s.lifecycle.status = .closed := by
  cases hkind : entry.event.isLifecycle with
  | false => rwa [applyEvent_lifecycle hinv hkind h] at hclosed
  | true =>
    obtain ⟨-, m, hm, rfl⟩ := applyEvent_eq_ok.mp h
    cases hevent' : entry.event with
    | lifecycle event =>
      simp only [applyEventKind, hevent'] at hm
      cases event with
      | opened config =>
        obtain ⟨-, rfl⟩ := opened_eq_ok.mp hm
        cases hclosed
      | configChanged config revision =>
        obtain ⟨-, -, -, rfl⟩ := configChanged_eq_ok.mp hm
        exact hclosed
      | closed => exact absurd hevent' hevent
    | _ => rw [hevent'] at hkind; cases hkind

theorem closed_fold {entries : List CoreAgentEntry} (hinv : EntriesInv s)
    (hevents : ∀ entry ∈ entries, entry.event ≠ .lifecycle .closed)
    (h : entries.foldlM applyEvent s = .ok t) (hclosed : t.lifecycle.status = .closed) :
    s.lifecycle.status = .closed := by
  induction entries generalizing s with
  | nil =>
    rw [List.foldlM_nil, pure_eq_ok] at h
    exact h ▸ hclosed
  | cons first rest ih =>
    obtain ⟨m, hm, h⟩ := foldlM_cons_eq_ok.mp h
    refine closed_step hinv (hevents first List.mem_cons_self) hm (ih ?_ ?_ h)
    · exact applyEvent_entriesInv hinv hm
    · exact fun entry hmem => hevents entry (List.mem_cons_of_mem _ hmem)

theorem ne_closed_stored {event : CoreAgentEvent} (h : event ≠ .lifecycle .closed) :
    event.stored ≠ .lifecycle .closed := by
  cases event with
  | lifecycle event =>
    cases event with
    | closed => exact absurd rfl h
    | _ => nofun
  | _ => nofun

theorem runTerminalSideEffects_snoc {cancelled : List PromiseId} {last : CoreAgentEventProposal}
    (hlast : last.event.terminalRunId = none) :
    runTerminalSideEffects base cancelled (proposals ++ [last]) =
      runTerminalSideEffects base cancelled proposals ++ [last] := by
  induction proposals generalizing cancelled with
  | nil => simp [runTerminalSideEffects, hlast]
  | cons first rest ih =>
    rw [List.cons_append, runTerminalSideEffects, runTerminalSideEffects]
    cases first.event.terminalRunId with
    | none => exact congrArg (first :: ·) ih
    | some runId => simp [ih]

/-- After every append, a closed session has no pending promise. -/
theorem closed_append (hinv : Inv s) (hs : ClosedInv s) (hscoped : Scoped t)
    (hproposed : Proposed sessionId s input proposals)
    (hcommit : (uncommitted s ms proposals).foldlM applyEvent s = .ok t) : ClosedInv t := by
  intro hclosed id promise hget hpending
  by_cases hbefore : s.lifecycle.status = .closed
  · -- Nothing was pending, and nothing is minted without an active run.
    have hnone : s.runs.active = none := (hinv.idle (by rw [hbefore]; nofun)).1
    have hplain : ∀ entry ∈ uncommitted s ms proposals, entry.event.createdId = none := by
      refine created_uncommitted ?_
      rcases proposed_plain hproposed with hminting | hplain
      · intro proposal hmem
        cases hcreated : proposal.event.createdId with
        | none => rfl
        | some created =>
          have hid : created ∈ createdIds proposals := List.mem_filterMap.mpr ⟨proposal, hmem, hcreated⟩
          obtain ⟨-, n, hreserved, -⟩ := hminting.above created hid
          rcases hreserved with ⟨run, hactive, -⟩ | ⟨scope, hscope, call, hcall, hopen, -⟩
          · rw [hnone] at hactive
            cases hactive
          · obtain ⟨_, run, _, -, hactive, -⟩ := hinv.code scope hscope call hcall hopen
            rw [hnone] at hactive
            cases hactive
      · exact hplain
    obtain ⟨old, hold, hstatus, -⟩ := pendingFrom_fold hinv.entries hplain hcommit id promise hget hpending
    exact hs hbefore id old hold hstatus
  · have hopen : (∀ proposal ∈ proposals, proposal.event ≠ .lifecycle .closed) → False := by
      intro hevents
      refine hbefore (closed_fold hinv.entries (fun entry hentry => ?_) hcommit hclosed)
      rcases mem_uncommitted hentry with ⟨proposal, hproposal, heq⟩ | ⟨id, heq⟩
      · rw [heq]
        exact ne_closed_stored (hevents proposal hproposal)
      · rw [heq]
        nofun
    rcases proposed_mints hproposed with hminting | hplain | ⟨front, rfl, -⟩
    · exact hopen hminting.stays
    · refine hopen fun proposal hmem hevent => ?_
      have hnot := hplain proposal hmem
      rw [hevent] at hnot
      cases hnot
    · -- The session closes at the end, where the reducer looks for promises of the session.
      rw [uncommitted, withRunTerminalSideEffects, runTerminalSideEffects_snoc rfl,
        entriesFrom_append] at hcommit
      obtain ⟨m, -, hcommit⟩ := foldlM_append_eq_ok.mp hcommit
      obtain ⟨v, hv, hlast⟩ := foldlM_cons_eq_ok.mp hcommit
      rw [entriesFrom, List.foldlM_nil, pure_eq_ok] at hlast
      subst hlast
      obtain ⟨-, w, hw, rfl⟩ := applyEvent_eq_ok.mp hv
      have hw' : applyLifecycleEvent m .closed = .ok w := hw
      obtain ⟨-, hactive, -, hsession, rfl⟩ := closed_eq_ok.mp hw'
      cases hscope : promise.scope with
      | run runId =>
        obtain ⟨run, hrun, -⟩ := hscoped id promise runId hget hpending hscope
        have hrun' : m.runs.active = some run := hrun
        rw [hactive] at hrun'
        cases hrun'
      | session =>
        have hget' : m.promises.promises.get? id = some promise := hget
        have hany : m.promises.pending.any (fun promise => promise.scope == .session) = true := by
          refine List.any_eq_true.mpr ⟨promise, ?_, by simp [hscope]⟩
          exact List.mem_filter.mpr ⟨OrdMap.mem_values.mpr ⟨id, hget'⟩, by simp [hpending]⟩
        rw [hsession] at hany
        cases hany

theorem reachable_promises (h : Reachable sessionId s log) :
    SettledInv s ∧ Scoped s ∧ ClosedInv s := by
  refine EventSource.Reaches.invariant (P := fun s _ => SettledInv s ∧ Scoped s ∧ ClosedInv s)
    ⟨settledInv_init, ?_, by rintro ⟨⟩⟩ ?_ h
  · rintro id promise runId ⟨⟩
  rintro s log ⟨ms, input⟩ entries t hreached ⟨hsettled, hscoped, hclosed⟩ hpropose hcommit
  obtain ⟨hinv, -⟩ := reachable_inv hreached
  obtain ⟨proposals, -, hproposed, rfl⟩ := proposeEntries_cases hpropose
  have hscoped' : Scoped t := scoped_append hinv.entries hsettled hscoped hproposed hcommit
  refine ⟨?_, hscoped', closed_append hinv hclosed hscoped' hproposed hcommit⟩
  have hboth : EntriesInv t ∧ SettledInv t := by
    refine foldlM_preserves (P := fun u => EntriesInv u ∧ SettledInv u) (fun entry _ u v hv hu => ?_)
      hcommit ⟨hinv.entries, hsettled⟩
    exact ⟨applyEvent_entriesInv hu.1 hv, promises_step hu.1 hu.2 hv⟩
  exact hboth.2

theorem createdPromises_entriesFrom (ms seq : Nat) (proposals : List CoreAgentEventProposal) :
    createdPromises (entriesFrom ms seq proposals) = createdIds proposals := by
  induction proposals generalizing seq with
  | nil => rfl
  | cons first rest ih =>
    have hrest := ih (seq + 1)
    unfold createdPromises createdIds at hrest ⊢
    rw [entriesFrom, List.filterMap_cons, List.filterMap_cons, hrest, createdId_stored]

/-- An append creates no promise that its log has created before. -/
theorem minted_append (hminted : MintedInv s log) (honce : (createdPromises log).Nodup)
    (hproposed : Proposed sessionId s input proposals) :
    (createdPromises (log ++ uncommitted s ms proposals)).Nodup := by
  have happend : createdPromises (log ++ uncommitted s ms proposals) =
      createdPromises log ++ createdPromises (uncommitted s ms proposals) := List.filterMap_append
  rw [happend]
  rcases proposed_plain hproposed with hminting | hplain
  · rw [uncommitted_eq hminting.terminal, createdPromises_entriesFrom]
    refine honce.append hminting.once fun id hold hnew => ?_
    obtain ⟨hgone, n, hreserved, hle⟩ := hminting.above id hnew
    exact absurd (hminted.gone id hold hgone n hreserved) hle.not_gt
  · have hnone : createdPromises (uncommitted s ms proposals) = [] :=
      List.filterMap_eq_nil_iff.mpr (created_uncommitted hplain)
    rwa [hnone, List.append_nil]

theorem trace_minted {steps : List (CoreAgentState × Nat × DriveInput)}
    (h : EventSource.Trace (drive sessionId) steps s log)
    (hmeets : ∀ step ∈ steps, ¬ StartsExhausted step.1 step.2.2) : (createdPromises log).Nodup := by
  induction h with
  | init => exact .nil
  | @append steps s t log entries input reached proposed committed ih =>
    have hbefore : ∀ step ∈ steps, ¬ StartsExhausted step.1 step.2.2 :=
      fun step hstep => hmeets step (List.mem_append_left _ hstep)
    have hminted : MintedInv s log := by
      refine trace_preserves (P := MintedInv) (M := fun s input => ¬ StartsExhausted s input)
        mintedInv_init ?_ reached hbefore
      intro base input s log entry t hmeet hinv _ _ hminted hw happly
      exact minted_step hmeet hinv hminted hw happly
    obtain ⟨proposals, -, hproposed, rfl⟩ := proposeEntries_cases proposed
    exact minted_append hminted (ih hbefore) hproposed

/-- The ledger of promises: the settled ones are listed once each, a pending promise of a run names the
active run, a closed session has no pending promise, and no id is created twice in a session that never
starts a batch when its promise numbers are used up. -/
theorem promise_ledger {steps : List (CoreAgentState × Nat × DriveInput)}
    (h : EventSource.Trace (drive sessionId) steps s log)
    (hmeets : ∀ step ∈ steps, ¬ StartsExhausted step.1 step.2.2) :
    (s.promises.settled.Nodup ∧ ∀ id, id ∈ s.promises.settled ↔
      ∃ promise, s.promises.promises.get? id = some promise ∧ promise.status.isTerminal = true) ∧
      (∀ id promise runId, s.promises.promises.get? id = some promise → promise.status = .pending →
        promise.scope = .run runId → ∃ run, s.runs.active = some run ∧ run.runId = runId) ∧
      (s.lifecycle.status = .closed → ∀ id promise, s.promises.promises.get? id = some promise →
        promise.status ≠ .pending) ∧
      (createdPromises log).Nodup := by
  obtain ⟨hsettled, hscoped, hclosed⟩ := reachable_promises h.reaches
  exact ⟨⟨hsettled.once, hsettled.exact⟩, hscoped, hclosed, trace_minted h hmeets⟩

/-- The promise counter at a step is at most what it is in the end. -/
theorem trace_lastPromiseId {steps : List (CoreAgentState × Nat × DriveInput)}
    (h : EventSource.Trace (drive sessionId) steps s log) :
    ∀ step ∈ steps, step.1.idCursors.lastPromiseId ≤ s.idCursors.lastPromiseId := by
  induction h with
  | init => rintro step ⟨⟩
  | @append steps s t log entries input reached proposed committed ih =>
    have hlast : EntriesInv t ∧ s.idCursors.lastPromiseId ≤ t.idCursors.lastPromiseId := by
      refine foldlM_preserves
        (P := fun u => EntriesInv u ∧ s.idCursors.lastPromiseId ≤ u.idCursors.lastPromiseId)
        (fun entry _ u v hv hu => ?_) committed ⟨(reachable_inv reached.reaches).1.entries, le_rfl⟩
      exact ⟨applyEvent_entriesInv hu.1 hv, hu.2.trans (lastPromiseId_step hu.1 hv)⟩
    intro step hstep
    rcases List.mem_append.mp hstep with hstep | hstep
    · exact (ih step hstep).trans hlast.2
    · rw [List.mem_singleton.mp hstep]
      exact hlast.2

theorem promise_ledger_replied : ∃ s log, (drive "session").exec repliedRun = some (s, log) ∧
    createdPromises log = [⟨1, by decide⟩] ∧ s.promises.settled = [⟨1, by decide⟩] ∧
    s.promises.settled.Nodup ∧ (createdPromises log).Nodup := by
  have hsome : ((drive "session").exec repliedRun).map (fun p =>
      (p.1.idCursors.lastPromiseId, createdPromises p.2, p.1.promises.settled)) =
      some (1, [⟨1, by decide⟩], [⟨1, by decide⟩]) := by
    decide +kernel
  obtain ⟨⟨s, log⟩, hexec, hfacts⟩ := Option.map_eq_some_iff.mp hsome
  obtain ⟨hlast, hrest⟩ := Prod.mk.inj hfacts
  obtain ⟨hcreated, hsettled⟩ := Prod.mk.inj hrest
  obtain ⟨steps, htrace, -⟩ := EventSource.exec_trace hexec
  have hledger := promise_ledger htrace fun step hstep hexhausted => by
    have hle := hexhausted.2.trans (trace_lastPromiseId htrace step hstep)
    have hone : s.idCursors.lastPromiseId = 1 := hlast
    rw [hone] at hle
    exact absurd hle (by decide)
  exact ⟨s, log, hexec, hcreated, hsettled, hledger.1.1, hledger.2.2.2⟩

/-! ## A session that uses up its promise numbers -/

/-- The last promise id that there is. -/
def lastPromise : PromiseId := ⟨u64Bound - 1, by decide⟩

/-- The promise ids from `n` down. -/
def firstPromises : (n : Nat) → n < u64Bound → List PromiseId
  | 0, _ => []
  | n + 1, h => ⟨n + 1, h⟩ :: firstPromises n (Nat.lt_of_succ_lt h)

/-- The answer of a model that calls a tool under each of these ids. -/
def sampleCalls (turnId : TurnId) (callIds : List ToolCallId) : LlmGenerationResult where
  runId := 1
  turnId := turnId
  status := .succeeded
  facts :=
    { finish := .toolCalls
      toolCalls := callIds.map fun callId =>
        { callId, toolId := some "read_file", toolName := "read_file", argumentsRef := ⟨"path"⟩ } }
  contextEntries := callIds.map fun callId =>
    { kind := .toolCall callId "read_file", content := { contentRef := ⟨"path"⟩ } }

/-- The result of a call, with its effects. -/
def sampleResult (callId : ToolCallId) (effects : List ToolEffect) : ToolCallResult where
  callId := callId
  status := .succeeded
  effects := effects
  outputRef := some ⟨"output"⟩
  modelVisibleContextEntries := [toolResultContextEntry callId .succeeded ⟨"output"⟩]

/-- The calls of a first batch, in pairs: each pair mints a group of promises and cancels them. -/
def mintingCalls : List (ToolCallId × ToolCallId) :=
  [("mint_1", "cancel_1"), ("mint_2", "cancel_2"), ("mint_3", "cancel_3"), ("mint_4", "cancel_4"),
    ("mint_5", "cancel_5"), ("mint_6", "cancel_6"), ("mint_7", "cancel_7"), ("mint_8", "cancel_8")]

/-- The results of a pair of calls: the promises of `ids` are created, and then cancelled. -/
def mintedAndCancelled (calls : ToolCallId × ToolCallId) (ids : List PromiseId) :
    List (Nat × DriveInput) :=
  [(11, .resumeToolBatch ⟨1, 1, 1,
      [sampleResult calls.1 (ids.map fun id => .promiseCreate id 1000 none)]⟩),
    (12, .resumeToolBatch ⟨1, 1, 1, [sampleResult calls.2 (ids.map .promiseCancel)]⟩)]

/-- A first batch mints the last promise and 256 more, and cancels the last one first, so that it is
pruned when the batch completes. The base of the second batch is the last number again. -/
def exhaustedRun : List (Nat × DriveInput) :=
  let minted := lastPromise :: firstPromises 256 (by decide)
  [(0, .admitCommand (.openSession sampleConfig)),
    (1, .admitCommand (.replaceTools none (OrdMap.ofList [("read_file", sampleReadTool)]))),
    (2, .admitCommand (.requestRun { source := ⟨[sampleMessage]⟩ })),
    (3, .nextAction), (4, .nextAction), (5, .nextAction), (6, .nextAction), (7, .nextAction),
    (8, .resumeGeneration (sampleCalls 1 (mintingCalls.flatMap fun calls => [calls.1, calls.2]))),
    (9, .nextAction), (10, .nextAction)] ++
  (mintingCalls.zipIdx.flatMap fun (calls, i) =>
    mintedAndCancelled calls ((minted.drop (33 * i)).take 33)) ++
  [(13, .nextAction), (14, .nextAction), (15, .nextAction), (16, .nextAction),
    (17, .resumeGeneration (sampleCalls 2 ["again"])), (18, .nextAction), (19, .nextAction),
    (20, .resumeToolBatch ⟨1, 2, 2, [sampleResult "again" [.promiseCreate lastPromise 1000 none]]⟩)]

theorem promise_created_twice : ∃ s log, (drive "session").exec exhaustedRun = some (s, log) ∧
    ¬ (createdPromises log).Nodup := by
  have hcount : ((drive "session").exec exhaustedRun).map
      (fun p => (createdPromises p.2).count lastPromise) = some 2 := by
    decide +kernel
  obtain ⟨⟨s, log⟩, hexec, htwo⟩ := Option.map_eq_some_iff.mp hcount
  refine ⟨s, log, hexec, fun hnodup => ?_⟩
  have hone : (createdPromises log).count lastPromise ≤ 1 :=
    List.nodup_iff_count_le_one.mp hnodup lastPromise
  have hcontra : 2 ≤ 1 := htwo ▸ hone
  exact absurd hcontra (by decide)

end Lightspeed.Harness
