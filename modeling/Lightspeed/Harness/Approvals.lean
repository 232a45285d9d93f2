import Lightspeed.Harness.Endings
import Lightspeed.Lib.Lists

/-!
# Approvals

An approval that is requested of an active run is settled by one decision or one cancellation. The ends of
a run are the places where one could be forgotten: `approval_settled` says that a run's end comes after the
settlement of every approval that was requested of it, in the sessions that never force the cancellation of
a run with pending approvals, and `forceCancelled_unsettled` is a session that does.
-/

namespace Lightspeed.Harness

open Lib

variable {sessionId : SessionId} {base s t : CoreAgentState} {input : DriveInput}
  {entry : CoreAgentEntry} {log entries : List CoreAgentEntry}

/-! ## The approvals of a log -/

/-- Whether an event decides or cancels an approval. -/
def CoreAgentEvent.settles (id : ApprovalId) : CoreAgentEvent → Bool
  | .approval (.decided settled _ _ _) | .approval (.cancelled settled _) => settled == id
  | _ => false

/-- How often a log decides or cancels an approval. -/
def settlements (id : ApprovalId) (log : List CoreAgentEntry) : Nat :=
  log.countP fun entry => entry.event.settles id

/-- The approval that an event requests. -/
def CoreAgentEvent.requestedApproval : CoreAgentEvent → Option ApprovalRequested
  | .approval (.requested request) => some request
  | _ => none

/-- The approvals that a log requests, in order. -/
def requestedApprovals (log : List CoreAgentEntry) : List ApprovalRequested :=
  log.filterMap fun entry => entry.event.requestedApproval

theorem settlements_snoc (id : ApprovalId) (log : List CoreAgentEntry) (entry : CoreAgentEntry) :
    settlements id (log ++ [entry]) =
      settlements id log + if entry.event.settles id then 1 else 0 := by
  rw [settlements, settlements, List.countP_append, List.countP_singleton]

theorem requestedApprovals_snoc (log : List CoreAgentEntry) (entry : CoreAgentEntry) :
    requestedApprovals (log ++ [entry]) =
      requestedApprovals log ++ entry.event.requestedApproval.toList := by
  cases hrequested : entry.event.requestedApproval <;> simp [requestedApprovals, hrequested]

theorem approvalId_injective : Function.Injective approvalId := by
  intro a b h
  have hdigits : Nat.toDigits 10 a = Nat.toDigits 10 b := by
    rw [← String.toList_inj] at h
    simpa [approvalId, String.toList_append] using h
  calc a = Nat.ofDigitChars 10 (Nat.toDigits 10 a) 0 := Nat.ofDigitChars_ten_toDigits.symm
    _ = Nat.ofDigitChars 10 (Nat.toDigits 10 b) 0 := by rw [hdigits]
    _ = b := Nat.ofDigitChars_ten_toDigits

/-! ## What other events do to approvals -/

/-- The run `b` is `a` later on: it has the approvals of `a`, less some that are no longer pending, and is
cancelling if `a` was. -/
structure ActiveRun.Steady (a b : ActiveRun) : Prop where
  runId : b.runId = a.runId
  cancelling : a.status = .cancelling → b.status = .cancelling
  kept : ∀ id record, b.approvals.get? id = some record → a.approvals.get? id = some record
  pending : ∀ id record, a.approvals.get? id = some record → record.status = .pending →
    b.approvals.get? id = some record

theorem ActiveRun.Steady.of_eq {a b : ActiveRun} (hid : b.runId = a.runId)
    (h : b.approvals = a.approvals) (hstatus : a.status = .cancelling → b.status = .cancelling) :
    a.Steady b :=
  ⟨hid, hstatus, fun _ _ hget => h ▸ hget, fun _ _ hget _ => h ▸ hget⟩

/-- Pruning a run's records drops no approval that is pending. -/
theorem pruneSettledRunRecords_steady {a b : ActiveRun} (hid : b.runId = a.runId)
    (h : b.approvals = a.approvals) (hstatus : b.status = a.status) :
    a.Steady (pruneSettledRunRecords b) := by
  refine ⟨hid, hstatus.trans, fun id record hget => ?_, fun id record hget hstatus => ?_⟩
  · simp only [pruneSettledRunRecords, pruneTerminalApprovals, OrdMap.get?_filter,
      Option.filter_eq_some_iff] at hget
    exact h ▸ hget.1
  · simp only [pruneSettledRunRecords, pruneTerminalApprovals, OrdMap.get?_filter,
      Option.filter_eq_some_iff]
    exact ⟨h ▸ hget, by simp [hstatus, ApprovalStatus.isTerminal]⟩

theorem turn_steady {event : TurnEvent} (h : applyTurnEvent s event = .ok t) :
    ∀ b, t.runs.active = some b → ∃ a, s.runs.active = some a ∧ a.Steady b := by
  cases applyTurnEvent_moves h with
  | writes context hactive hopen hget hwrites =>
    rintro b ⟨⟩
    have hrun := hwrites.run
    exact ⟨_, hactive, .of_eq (by rw [hrun]) (by rw [hrun]) fun hstatus => by rw [hrun, ← hstatus]⟩
  | completes hactive =>
    rintro b ⟨⟩
    exact ⟨_, hactive, pruneSettledRunRecords_steady rfl rfl rfl⟩
  | _ hactive =>
    rintro b ⟨⟩
    exact ⟨_, hactive, .of_eq rfl rfl id⟩

theorem tool_steady {event : ToolEvent} (h : applyToolEvent s event = .ok t) :
    ∀ b, t.runs.active = some b → ∃ a, s.runs.active = some a ∧ a.Steady b := by
  cases applyToolEvent_moves h with
  | works cursor hworks hactive hrun =>
    rintro b ⟨⟩
    exact ⟨_, hactive, .of_eq (by rw [hrun]) (by rw [hrun]) fun hstatus => by rw [hrun, ← hstatus]⟩
  | parks hactive hrunning =>
    rintro b ⟨⟩
    refine ⟨_, hactive, .of_eq rfl rfl fun hcancelling => ?_⟩
    exact absurd (hrunning.symm.trans hcancelling) nofun
  | unparks hactive =>
    rintro b ⟨⟩
    exact ⟨_, hactive, .of_eq rfl rfl fun hcancelling => by simp [hcancelling]⟩
  | completes hactive =>
    rintro b ⟨⟩
    exact ⟨_, hactive, pruneSettledRunRecords_steady rfl rfl rfl⟩

/-- Whether an event is about approvals. -/
def CoreAgentEvent.isApproval : CoreAgentEvent → Bool
  | .approval _ => true
  | _ => false

/-- Events that are about neither runs nor approvals leave what is pending, and number no approval. -/
theorem applyEvent_steady (hinv : EntriesInv s) (hrun : entry.event.isRun = false)
    (happroval : entry.event.isApproval = false) (h : applyEvent s entry = .ok t) :
    t.idCursors.lastApprovalId = s.idCursors.lastApprovalId ∧
      ∀ b, t.runs.active = some b → ∃ a, s.runs.active = some a ∧ a.Steady b := by
  obtain ⟨-, m, hm, rfl⟩ := applyEvent_eq_ok.mp h
  change m.idCursors.lastApprovalId = s.idCursors.lastApprovalId ∧
    ∀ b, m.runs.active = some b → ∃ a, s.runs.active = some a ∧ a.Steady b
  cases applyEventKind_moves hm with
  | run heq => rw [heq] at hrun; cases hrun
  | approval heq => rw [heq] at happroval; cases happroval
  | turn heq hm =>
    obtain ⟨_, _, _, _, _, _, _, hframe⟩ := applyTurnEvent_frame hm
    exact ⟨by rw [hframe], turn_steady hm⟩
  | context heq hm =>
    have hframe := applyContextEvent_frame hinv hm
    refine ⟨by rw [hframe.cursors], fun b hb => ?_⟩
    obtain ⟨a, ha, hkept⟩ := hframe.active b hb
    exact ⟨a, ha, .of_eq hkept.same.runId (by rw [hkept.run]) hkept.status.trans⟩
  | tool heq hm =>
    obtain ⟨_, _, _, _, hframe⟩ := applyToolEvent_frame hm
    exact ⟨by rw [hframe], tool_steady hm⟩
  | rests hspares hruns hcontext hcursors =>
    exact ⟨by rw [hcursors], fun b hb => ⟨b, hruns ▸ hb, .of_eq rfl rfl id⟩⟩

/-! ## The invariant -/

/-- A run that still waits on an approval. -/
def ActiveRun.WaitsOn (run : ActiveRun) (id : ApprovalId) : Prop :=
  ∃ record, run.approvals.get? id = some record ∧ record.status = .pending

theorem ActiveRun.Steady.waitsOn {a b : ActiveRun} (h : a.Steady b)
    (id : ApprovalId) : b.WaitsOn id ↔ a.WaitsOn id := by
  constructor
  · rintro ⟨record, hget, hstatus⟩
    exact ⟨record, h.kept id record hget, hstatus⟩
  · rintro ⟨record, hget, hstatus⟩
    exact ⟨record, h.pending id record hget hstatus, hstatus⟩

theorem not_waitsOn_of_nil {run : ActiveRun} (h : run.pendingApprovals = []) (id : ApprovalId) :
    ¬ run.WaitsOn id := by
  rintro ⟨record, hget, hstatus⟩
  exact pendingApprovals_ne_nil hget hstatus h

/-- An approval is settled once, and before the end of its run. -/
def SettledAtEnd (approval : ApprovalRequested) (log : List CoreAgentEntry) : Prop :=
  ∀ before entry after, log = before ++ entry :: after →
    entry.event.endedRunId = some approval.runId →
    settlements approval.approvalId before = 1 ∧ settlements approval.approvalId log = 1

/-- What a log says of the approvals: a run waits on those that were requested of it and not settled. -/
structure ApprovalsInv (s : CoreAgentState) (log : List CoreAgentEntry) : Prop where
  numbered : (requestedApprovals log).map ApprovalRequested.approvalId =
    (List.range' 1 s.idCursors.lastApprovalId).map approvalId
  known : ∀ id, settlements id log ≠ 0 → ∃ approval ∈ requestedApprovals log,
    approval.approvalId = id
  recorded : s.ForActive fun run => ∀ id record, run.approvals.get? id = some record →
    record.request ∈ requestedApprovals log
  running : ∀ approval ∈ requestedApprovals log, approval.runId ∈ endedRunIds log ∨
    ∃ run, s.runs.active = some run ∧ run.runId = approval.runId
  settled : ∀ approval ∈ requestedApprovals log, s.ForActive fun run =>
    run.runId = approval.runId →
      (run.WaitsOn approval.approvalId ∧ settlements approval.approvalId log = 0) ∨
        (¬ run.WaitsOn approval.approvalId ∧ settlements approval.approvalId log = 1)
  ended : ∀ approval ∈ requestedApprovals log, SettledAtEnd approval log

theorem approvalsInv_init : ApprovalsInv CoreAgentState.new [] where
  numbered := rfl
  known := fun _ h => absurd rfl h
  recorded := by rintro run ⟨⟩
  running := nofun
  settled := nofun
  ended := nofun

/-- No two requests have one id. -/
theorem ApprovalsInv.eq_of_id (h : ApprovalsInv s log) {a b : ApprovalRequested}
    (ha : a ∈ requestedApprovals log) (hb : b ∈ requestedApprovals log)
    (hid : a.approvalId = b.approvalId) : a = b := by
  have hnodup : ((requestedApprovals log).map ApprovalRequested.approvalId).Nodup := by
    rw [h.numbered]
    exact List.Nodup.map approvalId_injective List.nodup_range'
  exact List.inj_on_of_nodup_map hnodup ha hb hid

/-- A request's number has been counted. -/
theorem ApprovalsInv.bound (h : ApprovalsInv s log) {a : ApprovalRequested}
    (ha : a ∈ requestedApprovals log) :
    ∃ n ≤ s.idCursors.lastApprovalId, a.approvalId = approvalId n := by
  have hmem : a.approvalId ∈ (requestedApprovals log).map ApprovalRequested.approvalId :=
    List.mem_map_of_mem ha
  rw [h.numbered] at hmem
  obtain ⟨n, hn, heq⟩ := List.mem_map.mp hmem
  have hlt := (List.mem_range'_1.mp hn).2
  rw [Nat.add_comm] at hlt
  exact ⟨n, Nat.le_of_lt_succ hlt, heq.symm⟩

theorem mem_endedRunIds_of_split {before after : List CoreAgentEntry} {last : CoreAgentEntry}
    {runId : RunId} (hsplit : log = before ++ last :: after)
    (hend : last.event.endedRunId = some runId) : runId ∈ endedRunIds log :=
  mem_endedRunIds.mpr ⟨last, hsplit ▸ List.mem_append_right _ List.mem_cons_self, hend⟩

/-- One more entry, which does not settle an approval whose run has ended, nor end a run whose approval
is not settled. -/
theorem SettledAtEnd.snoc {approval : ApprovalRequested} (h : SettledAtEnd approval log)
    (hpast : approval.runId ∈ endedRunIds log → entry.event.settles approval.approvalId = false)
    (hend : entry.event.endedRunId = some approval.runId →
      settlements approval.approvalId log = 1 ∧ entry.event.settles approval.approvalId = false) :
    SettledAtEnd approval (log ++ [entry]) := by
  intro before last after hsplit hlast
  rw [settlements_snoc]
  rcases snoc_eq_append_cons.mp hsplit with ⟨rest, -, hlog⟩ | ⟨-, rfl, rfl⟩
  · obtain ⟨hbefore, hall⟩ := h before last rest hlog hlast
    rw [hall, hpast (mem_endedRunIds_of_split hlog hlast)]
    exact ⟨hbefore, rfl⟩
  · obtain ⟨hall, hsettles⟩ := hend hlast
    rw [hall, hsettles]
    exact ⟨rfl, rfl⟩

/-! ## Steps -/

/-- An event that neither requests nor settles an approval, nor ends a run. -/
theorem ApprovalsInv.quiet (h : ApprovalsInv s log)
    (hrequest : entry.event.requestedApproval = none)
    (hsettle : ∀ id, entry.event.settles id = false) (hend : entry.event.endedRunId = none)
    (hcursor : t.idCursors.lastApprovalId = s.idCursors.lastApprovalId)
    (hactive : ∀ b, t.runs.active = some b →
      (∃ a, s.runs.active = some a ∧ a.Steady b) ∨
        s.runs.active = none ∧ b.approvals = .empty ∧ b.runId ∉ endedRunIds log)
    (hstays : ∀ a, s.runs.active = some a → ∃ b, t.runs.active = some b ∧ b.runId = a.runId) :
    ApprovalsInv t (log ++ [entry]) := by
  have hrequested : requestedApprovals (log ++ [entry]) = requestedApprovals log := by
    rw [requestedApprovals_snoc, hrequest, Option.toList_none, List.append_nil]
  have hsettlements : ∀ id, settlements id (log ++ [entry]) = settlements id log := by
    intro id
    rw [settlements_snoc, hsettle]
    rfl
  have hended : endedRunIds (log ++ [entry]) = endedRunIds log := by
    rw [endedRunIds_snoc, hend, Option.toList_none, List.append_nil]
  refine ⟨?_, ?_, ?_, ?_, ?_, ?_⟩ <;> rw [hrequested]
  · rw [hcursor]
    exact h.numbered
  · exact fun id hne => h.known id (hsettlements id ▸ hne)
  · intro b hb id record hget
    rcases hactive b hb with ⟨a, ha, hkeeps⟩ | ⟨-, hempty, -⟩
    · exact h.recorded a ha id record (hkeeps.kept id record hget)
    · rw [hempty] at hget
      cases hget
  · intro approval hmem
    rw [hended]
    refine (h.running approval hmem).imp_right ?_
    rintro ⟨a, ha, hid⟩
    obtain ⟨b, hb, hkeeps⟩ := hstays a ha
    exact ⟨b, hb, hkeeps.trans hid⟩
  · intro approval hmem b hb hid
    rw [hsettlements]
    rcases hactive b hb with ⟨a, ha, hkeeps⟩ | ⟨hnone, -, hfresh⟩
    · rw [hkeeps.waitsOn]
      exact h.settled approval hmem a ha (hkeeps.runId ▸ hid)
    · -- Whatever was requested before a run starts was requested of runs that have ended.
      rcases h.running approval hmem with hpast | ⟨run, hrun, -⟩
      · exact absurd (hid ▸ hpast) hfresh
      · rw [hnone] at hrun
        cases hrun
  · intro approval hmem
    refine (h.ended approval hmem).snoc (fun _ => hsettle _) fun hlast => ?_
    rw [hend] at hlast
    cases hlast

/-- The end of a run that waits on nothing. -/
theorem ApprovalsInv.end (h : ApprovalsInv s log) {runId : RunId}
    (hrequest : entry.event.requestedApproval = none)
    (hsettle : ∀ id, entry.event.settles id = false) (hend : entry.event.endedRunId = some runId)
    (hcursor : t.idCursors.lastApprovalId = s.idCursors.lastApprovalId)
    (hwaits : ∀ approval ∈ requestedApprovals log, approval.runId = runId →
      settlements approval.approvalId log = 1)
    (hactive : ∀ b, t.runs.active = some b → s.runs.active = some b)
    (hstays : ∀ a, s.runs.active = some a → a.runId = runId ∨ t.runs.active = some a) :
    ApprovalsInv t (log ++ [entry]) := by
  have hrequested : requestedApprovals (log ++ [entry]) = requestedApprovals log := by
    rw [requestedApprovals_snoc, hrequest, Option.toList_none, List.append_nil]
  have hsettlements : ∀ id, settlements id (log ++ [entry]) = settlements id log := by
    intro id
    rw [settlements_snoc, hsettle]
    rfl
  refine ⟨?_, ?_, ?_, ?_, ?_, ?_⟩ <;> rw [hrequested]
  · rw [hcursor]
    exact h.numbered
  · exact fun id hne => h.known id (hsettlements id ▸ hne)
  · exact fun b hb => h.recorded b (hactive b hb)
  · intro approval hmem
    rw [endedRunIds_snoc, hend, Option.toList_some, List.mem_append, List.mem_singleton]
    rcases h.running approval hmem with hpast | ⟨a, ha, hid⟩
    · exact .inl (.inl hpast)
    · rcases hstays a ha with heq | hb
      · exact .inl (.inr (hid.symm.trans heq))
      · exact .inr ⟨a, hb, hid⟩
  · intro approval hmem b hb hid
    rw [hsettlements]
    exact h.settled approval hmem b (hactive b hb) hid
  · intro approval hmem
    refine (h.ended approval hmem).snoc (fun _ => hsettle _) fun hlast => ⟨?_, hsettle _⟩
    rw [hend] at hlast
    exact hwaits approval hmem (Option.some.inj hlast).symm

/-- A request adds an approval that the run waits on. -/
theorem ApprovalsInv.request (h : ApprovalsInv s log) (hended : EndedInv s log)
    {approval : ApprovalRequested} {run run' : ActiveRun} {record : ApprovalRecord}
    (hevent : entry.event = .approval (.requested approval)) (hactive : s.runs.active = some run)
    (hrun : run.runId = approval.runId)
    (hid : approval.approvalId = approvalId (s.idCursors.lastApprovalId + 1))
    (hrecord : record.request = approval) (hstatus : record.status = .pending)
    (hactive' : t.runs.active = some run') (hrun' : run'.runId = run.runId)
    (happrovals : run'.approvals = run.approvals.insert approval.approvalId record)
    (hcursor : t.idCursors.lastApprovalId = s.idCursors.lastApprovalId + 1) :
    ApprovalsInv t (log ++ [entry]) := by
  have hrequested : requestedApprovals (log ++ [entry]) = requestedApprovals log ++ [approval] := by
    rw [requestedApprovals_snoc, hevent]
    rfl
  have hsettlements : ∀ id, settlements id (log ++ [entry]) = settlements id log := by
    intro id
    rw [settlements_snoc, hevent]
    rfl
  have hends : endedRunIds (log ++ [entry]) = endedRunIds log := by
    rw [endedRunIds_snoc, hevent]
    exact List.append_nil _
  have hother : ∀ other ∈ requestedApprovals log, other.approvalId ≠ approval.approvalId := by
    intro other hmem heq
    obtain ⟨n, hn, hother⟩ := h.bound hmem
    rw [hother, hid] at heq
    exact absurd (approvalId_injective heq ▸ hn) (Nat.not_succ_le_self _)
  have hnew : settlements approval.approvalId log = 0 := by
    by_contra hne
    obtain ⟨other, hmem, heq⟩ := h.known _ hne
    exact hother other hmem heq
  refine ⟨?_, ?_, ?_, ?_, ?_, ?_⟩
  · rw [hrequested, List.map_append, h.numbered, hcursor, List.range'_1_concat, List.map_append,
      Nat.add_comm 1, List.map_singleton, List.map_singleton, hid]
  · intro id hne
    obtain ⟨other, hmem, heq⟩ := h.known id (hsettlements id ▸ hne)
    exact ⟨other, hrequested ▸ List.mem_append_left _ hmem, heq⟩
  · intro b hb id r hget
    obtain rfl : run' = b := Option.mem_unique hactive' hb
    rw [hrequested]
    rw [happrovals, OrdMap.get?_insert] at hget
    split_ifs at hget
    · cases hget
      exact List.mem_append_right _ (hrecord ▸ List.mem_cons_self)
    · exact List.mem_append_left _ (h.recorded run hactive id r hget)
  · intro other hmem
    rw [hends]
    rw [hrequested] at hmem
    rcases List.mem_append.mp hmem with hmem | hmem
    · refine (h.running other hmem).imp_right ?_
      rintro ⟨a, ha, heq⟩
      obtain rfl : run = a := Option.mem_unique hactive ha
      exact ⟨run', hactive', hrun'.trans heq⟩
    · rw [List.mem_singleton.mp hmem]
      exact .inr ⟨run', hactive', hrun'.trans hrun⟩
  · intro other hmem b hb heq
    obtain rfl : run' = b := Option.mem_unique hactive' hb
    rw [hsettlements]
    rw [hrequested] at hmem
    rcases List.mem_append.mp hmem with hmem | hmem
    · have hwaits : run'.WaitsOn other.approvalId ↔ run.WaitsOn other.approvalId := by
        unfold ActiveRun.WaitsOn
        rw [happrovals, OrdMap.get?_insert_ne _ _ (hother other hmem).symm]
      rw [hwaits]
      exact h.settled other hmem run hactive (hrun'.symm.trans heq)
    · rw [List.mem_singleton.mp hmem]
      exact .inl ⟨⟨record, by rw [happrovals, OrdMap.get?_insert_self], hstatus⟩, hnew⟩
  · intro other hmem
    rw [hrequested] at hmem
    have hsettles : ∀ id, entry.event.settles id = false := by
      intro id
      rw [hevent]
      rfl
    rcases List.mem_append.mp hmem with hmem | hmem
    · refine (h.ended other hmem).snoc (fun _ => hsettles _) fun hlast => ?_
      rw [hevent] at hlast
      cases hlast
    · rw [List.mem_singleton.mp hmem]
      intro before last after hsplit hlast
      have hpast := mem_endedRunIds_of_split hsplit hlast
      rw [hends] at hpast
      exact absurd hrun (hended.active _ hpast run hactive)

/-- A decision or a cancellation settles an approval that the run waited on. -/
theorem ApprovalsInv.settle (h : ApprovalsInv s log) (hended : EndedInv s log) (hinv : Inv s)
    {id : ApprovalId} {run run' : ActiveRun} {record record' : ApprovalRecord}
    (hsettles : ∀ other, entry.event.settles other = (id == other))
    (hrequest : entry.event.requestedApproval = none) (hend : entry.event.endedRunId = none)
    (hactive : s.runs.active = some run) (hget : run.approvals.get? id = some record)
    (hstatus : record.status = .pending) (hrecord : record'.request = record.request)
    (hstatus' : record'.status ≠ .pending) (hactive' : t.runs.active = some run')
    (hrun' : run'.runId = run.runId) (happrovals : run'.approvals = run.approvals.insert id record')
    (hcursor : t.idCursors.lastApprovalId = s.idCursors.lastApprovalId) :
    ApprovalsInv t (log ++ [entry]) := by
  have hrequested : requestedApprovals (log ++ [entry]) = requestedApprovals log := by
    rw [requestedApprovals_snoc, hrequest, Option.toList_none, List.append_nil]
  have hends : endedRunIds (log ++ [entry]) = endedRunIds log := by
    rw [endedRunIds_snoc, hend, Option.toList_none, List.append_nil]
  obtain ⟨hid, hrun⟩ := (hinv.run run hactive).approvals id record hget
  have hmem := h.recorded run hactive id record hget
  have hwaits : ∀ other, other ≠ id → (run'.WaitsOn other ↔ run.WaitsOn other) := by
    intro other hne
    unfold ActiveRun.WaitsOn
    rw [happrovals, OrdMap.get?_insert_ne _ _ hne.symm]
  refine ⟨?_, ?_, ?_, ?_, ?_, ?_⟩ <;> rw [hrequested]
  · rw [hcursor]
    exact h.numbered
  · intro other hne
    by_cases hsame : other = id
    · exact ⟨record.request, hmem, hid.trans hsame.symm⟩
    · rw [settlements_snoc, hsettles] at hne
      refine h.known other ?_
      simpa [Ne.symm hsame] using hne
  · intro b hb other r hr
    obtain rfl : run' = b := Option.mem_unique hactive' hb
    rw [happrovals, OrdMap.get?_insert] at hr
    split_ifs at hr
    · cases hr
      exact hrecord ▸ hmem
    · exact h.recorded run hactive other r hr
  · intro other hother
    rw [hends]
    refine (h.running other hother).imp_right ?_
    rintro ⟨a, ha, heq⟩
    obtain rfl : run = a := Option.mem_unique hactive ha
    exact ⟨run', hactive', hrun'.trans heq⟩
  · intro other hother b hb heq
    obtain rfl : run' = b := Option.mem_unique hactive' hb
    rw [settlements_snoc, hsettles]
    have hold := h.settled other hother run hactive (hrun'.symm.trans heq)
    by_cases hsame : other.approvalId = id
    · refine .inr ⟨?_, ?_⟩
      · rintro ⟨r, hr, hpending⟩
        rw [happrovals, hsame, OrdMap.get?_insert_self] at hr
        cases hr
        exact hstatus' hpending
      · rcases hold with ⟨-, hzero⟩ | ⟨hnot, -⟩
        · rw [hzero, hsame]
          simp
        · exact absurd ⟨record, hsame ▸ hget, hstatus⟩ hnot
    · rw [hwaits _ hsame]
      simpa [Ne.symm hsame] using hold
  · intro other hother
    refine (h.ended other hother).snoc (fun hpast => ?_) fun hlast => ?_
    · rw [hsettles, beq_eq_false_iff_ne]
      intro heq
      have hsame : record.request = other := h.eq_of_id hmem hother (hid.trans heq)
      exact hended.active _ hpast run hactive (hsame ▸ hrun.symm)
    · rw [hend] at hlast
      cases hlast

/-- An event that ends the active run finds no approval of it pending. -/
theorem Knew.pendingApprovals {event : RunEvent} {run : ActiveRun}
    (hknew : Knew base input s (.run event)) (hmeets : ¬ ForceCancelsPending base input)
    (hactive : s.runs.active = some run)
    (hends : (CoreAgentEvent.run event).terminalRunId = some run.runId) : run.pendingApprovals = [] := by
  cases event with
  | completed runId output => exact (hknew run hactive).2.2.2
  | failed runId failure | cancelled runId => exact (hknew run hactive).2
  | forceCancelled runId =>
    cases hends
    exact (hknew run hactive).resolve_right hmeets
  | _ => cases hends

/-- An event that the run takes steadily. -/
theorem ApprovalsInv.steady (h : ApprovalsInv s log) (hsettle : ∀ id, entry.event.settles id = false)
    (hrequest : entry.event.requestedApproval = none) (hend : entry.event.endedRunId = none)
    (hcursor : t.idCursors.lastApprovalId = s.idCursors.lastApprovalId) {run run' : ActiveRun}
    (hactive : s.runs.active = some run) (hactive' : t.runs.active = some run') (hkeeps : run.Steady run') :
    ApprovalsInv t (log ++ [entry]) := by
  refine h.quiet hrequest hsettle hend hcursor (fun b hb => ?_) fun a ha => ?_
  · obtain rfl : run' = b := Option.mem_unique hactive' hb
    exact .inl ⟨run, hactive, hkeeps⟩
  · obtain rfl : run = a := Option.mem_unique hactive ha
    exact ⟨run', hactive', hkeeps.runId⟩

theorem approvals_run {seq ms : Nat} {event : RunEvent} (hledger : LedgerInv s log)
    (hended : EndedInv s log) (h : ApprovalsInv s log) (hmeets : ¬ ForceCancelsPending base input)
    (hknew : Knew base input s (.run event)) (hevent : entry.event = .run event)
    (happly : applyRunEvent s seq ms event = .ok t) : ApprovalsInv t (log ++ [entry]) := by
  have hrequest : entry.event.requestedApproval = none := by rw [hevent]; rfl
  have hsettle : ∀ id, entry.event.settles id = false := fun id => by rw [hevent]; rfl
  have hcursor : t.idCursors.lastApprovalId = s.idCursors.lastApprovalId := by
    rw [applyRunEvent_frame happly]
  cases applyRunEvent_moves happly with
  | starts hnone hqueued =>
    refine h.quiet hrequest hsettle (by rw [hevent]; rfl) hcursor ?_ fun a ha => ?_
    · rintro b ⟨⟩
      refine .inr ⟨hnone, rfl, fun hmem => ?_⟩
      exact hended.queued _ hmem _ (hqueued ▸ List.mem_cons_self) rfl
    · rw [hnone] at ha
      cases ha
  | steers hactive =>
    exact h.steady hsettle hrequest (by rw [hevent]; rfl) hcursor hactive rfl (.of_eq rfl rfl id)
  | stops hactive =>
    exact h.steady hsettle hrequest (by rw [hevent]; rfl) hcursor hactive rfl (.of_eq rfl rfl fun _ => rfl)
  | ends hactive hends =>
    -- The log has settled all that was requested of the run.
    have hpending := hknew.pendingApprovals hmeets hactive hends
    have hend := endedRunId_of_terminal (hevent ▸ hends)
    refine h.end hrequest hsettle hend hcursor (fun approval hmem hrun => ?_) (fun b hb => ?_)
      fun a ha => ?_
    · have hcase := h.settled approval hmem _ hactive hrun.symm
      exact (hcase.resolve_left fun hwaits => not_waitsOn_of_nil hpending _ hwaits.1).2
    · simp at hb
    · obtain rfl := Option.mem_unique hactive ha
      exact .inl rfl
  | queues hqueues hsame ht =>
    cases event with
    | accepted accepted =>
      exact h.quiet hrequest hsettle (by rw [hevent]; rfl) hcursor
        (fun b hb => .inl ⟨b, hsame ▸ hb, .of_eq rfl rfl id⟩) fun a ha => ⟨a, hsame.trans ha, rfl⟩
    | queuedCancelled runId =>
      obtain ⟨queued, hqueued, -⟩ := queuedCancelled_eq_ok.mp happly
      have hmem := List.mem_of_find?_eq_some hqueued
      have hid : queued.runId = runId := by simpa using List.find?_some hqueued
      refine h.end (by rw [hevent]; rfl) hsettle (by rw [hevent]; rfl) hcursor ?_ ?_ ?_
      · intro approval hrequested heq
        rcases h.running approval hrequested with hpast | ⟨run, hactive, hrun⟩
        · exact absurd (hid.trans heq.symm) (hended.queued _ hpast queued hmem)
        · exact absurd (hrun.trans (heq.trans hid.symm)) (hledger.runs.head run hactive queued hmem).ne
      · exact fun b hb => hsame ▸ hb
      · exact fun a ha => .inr (hsame.trans ha)
    | _ => cases hqueues

theorem approvals_approval {ms : Nat} {event : ApprovalEvent} (hinv : Inv s)
    (hended : EndedInv s log) (h : ApprovalsInv s log) (hevent : entry.event = .approval event)
    (happly : applyApprovalEvent s ms event = .ok t) : ApprovalsInv t (log ++ [entry]) := by
  have hend : entry.event.endedRunId = none := by rw [hevent]; rfl
  cases event with
  | requested approval =>
    obtain ⟨run, hactive, hrun, -, hid, -, rfl⟩ := approvalRequested_eq_ok.mp happly
    exact h.request hended hevent hactive hrun hid rfl rfl rfl rfl rfl rfl
  | runParked runId =>
    obtain ⟨run, hactive, -, -, hstatus, -, -, rfl⟩ := runParked_eq_ok.mp happly
    refine h.steady (fun _ => by rw [hevent]; rfl) (by rw [hevent]; rfl) hend rfl hactive rfl
      (.of_eq rfl rfl fun hcancelling => ?_)
    exact absurd (hstatus.symm.trans hcancelling) nofun
  | runUnparked runId =>
    obtain ⟨run, hactive, -, hstatus, rfl⟩ := runUnparked_eq_ok.mp happly
    refine h.steady (fun _ => by rw [hevent]; rfl) (by rw [hevent]; rfl) hend rfl hactive rfl
      (.of_eq rfl rfl fun hcancelling => ?_)
    exact absurd (hstatus.symm.trans hcancelling) nofun
  | decided id runId decision note =>
    obtain ⟨run, record, hactive, -, hget, -, hstatus, rfl⟩ := decided_eq_ok.mp happly
    let decided : ApprovalRecord := { record with status := decision.status, note }
    have hrecord : decided.request = record.request := rfl
    have hdecided : decided.status ≠ .pending := by cases decision <;> nofun
    exact h.settle hended hinv (fun _ => by rw [hevent]; rfl) (by rw [hevent]; rfl) hend hactive hget hstatus hrecord hdecided rfl rfl rfl rfl
  | cancelled id runId =>
    obtain ⟨run, record, hactive, -, hget, -, hstatus, rfl⟩ := approvalCancelled_eq_ok.mp happly
    let cancelled : ApprovalRecord := { record with status := .cancelled }
    have hrecord : cancelled.request = record.request := rfl
    have hcancelled : cancelled.status ≠ .pending := nofun
    exact h.settle hended hinv (fun _ => by rw [hevent]; rfl) (by rw [hevent]; rfl) hend hactive hget hstatus hrecord hcancelled rfl rfl rfl rfl

/-- Every warranted event keeps the approvals in order, unless it forces a cancellation past them. -/
theorem approvals_step (hinv : Inv s) (hledger : LedgerInv s log) (hended : EndedInv s log)
    (h : ApprovalsInv s log) (hmeets : ¬ ForceCancelsPending base input)
    (hw : Warrant base input s entry) (happly : applyEvent s entry = .ok t) :
    ApprovalsInv t (log ++ [entry]) := by
  cases hevent : entry.event with
  | run event =>
    obtain ⟨-, m, hm, rfl⟩ := applyEvent_eq_ok.mp happly
    simp only [applyEventKind, hevent] at hm
    have hm' := approvals_run hledger hended h hmeets (hevent ▸ hw.knew) hevent hm
    exact ⟨hm'.numbered, hm'.known, hm'.recorded, hm'.running, hm'.settled, hm'.ended⟩
  | approval event =>
    obtain ⟨-, m, hm, rfl⟩ := applyEvent_eq_ok.mp happly
    simp only [applyEventKind, hevent] at hm
    have hm' := approvals_approval hinv hended h hevent hm
    exact ⟨hm'.numbered, hm'.known, hm'.recorded, hm'.running, hm'.settled, hm'.ended⟩
  | _ =>
    have hrun : entry.event.isRun = false := by rw [hevent]; rfl
    obtain ⟨hcursor, hkeeps⟩ :=
      applyEvent_steady hinv.entries hrun (by rw [hevent]; rfl) happly
    refine h.quiet (by rw [hevent]; rfl) (fun _ => by rw [hevent]; rfl) (by rw [hevent]; rfl) hcursor
      (fun b hb => .inl (hkeeps b hb)) fun a ha => ?_
    obtain ⟨b, hb, hsame⟩ := (applyEvent_runsFrame hinv.entries hrun happly).stays ha
    exact ⟨b, hb, hsame.runId⟩

/-- In the sessions that never force the cancellation of a run with pending approvals, every approval that
is requested of a run is decided or cancelled exactly once, and before the run ends. -/
theorem approval_settled {steps : List (CoreAgentState × Nat × DriveInput)}
    (h : EventSource.Trace (drive sessionId) steps s log)
    (hforced : ∀ step ∈ steps, ¬ ForceCancelsPending step.1 step.2.2) {approval : ApprovalRequested}
    (hrequested : approval ∈ requestedApprovals log) {before after : List CoreAgentEntry}
    (hsplit : log = before ++ entry :: after)
    (hended : entry.event.endedRunId = some approval.runId) :
    settlements approval.approvalId before = 1 ∧ settlements approval.approvalId log = 1 := by
  have hinv : ApprovalsInv s log := by
    refine trace_preserves (M := fun base input => ¬ ForceCancelsPending base input)
      approvalsInv_init ?_ h hforced
    intro base input s log entry t hmeets hinv hledger hended hs hw happly
    exact approvals_step hinv hledger hended hs hmeets hw happly
  exact hinv.ended approval hrequested before entry after hsplit hended

/-- A session whose run parks on an approval. -/
def approvalRun : List (Nat × DriveInput) :=
  [(0, .admitCommand (.openSession sampleConfig)),
    (1, .admitCommand (.requestRun { source := ⟨[sampleMessage]⟩ })),
    (2, .nextAction), (2, .nextAction), (2, .nextAction), (2, .nextAction), (2, .nextAction),
    (3, .resumeGeneration { runId := 1, turnId := 1, status := .succeeded, contextEntries := []
                            facts := { finish := .stop, approvalRequests := [sampleApproval] } }),
    (4, .nextAction)]

/-- The run is cancelled, and with it the approval. -/
def cancelledApprovalRun : List (Nat × DriveInput) :=
  approvalRun ++ [(5, .admitCommand (.cancelRun 1)), (6, .nextAction)]

theorem approval_settled_cancelled :
    ∃ s log before entry approval, (drive "session").exec cancelledApprovalRun = some (s, log) ∧
      approval ∈ requestedApprovals log ∧ log = before ++ [entry] ∧
      entry.event.endedRunId = some approval.runId ∧
      settlements approval.approvalId before = 1 ∧ settlements approval.approvalId log = 1 := by
  obtain ⟨⟨s, log⟩, hexec, hread⟩ : ∃ p ∈ (drive "session").exec cancelledApprovalRun,
      ((requestedApprovals p.2).map ApprovalRequested.runId,
        p.2.getLast?.bind (fun entry => entry.event.endedRunId)) = ([1], some 1) := by decide +kernel
  obtain ⟨steps, htrace, hinputs⟩ := EventSource.exec_trace hexec
  have hunforced : ∀ input ∈ cancelledApprovalRun, ∀ runId,
      input.2 ≠ .admitCommand (.forceCancelRun runId) := by
    intro input hmem runId
    simp only [cancelledApprovalRun, approvalRun, List.cons_append, List.nil_append, List.mem_cons,
      List.not_mem_nil, or_false] at hmem
    rcases hmem with rfl | rfl | rfl | rfl | rfl | rfl | rfl | rfl | rfl | rfl | rfl <;> nofun
  have hforced : ∀ step ∈ steps, ¬ ForceCancelsPending step.1 step.2.2 := by
    rintro step hmem ⟨run, -, heq, -⟩
    exact hunforced step.2 (hinputs ▸ List.mem_map_of_mem hmem) run.runId heq
  obtain ⟨hrequested, hlast⟩ := Prod.mk.inj hread
  obtain ⟨approval, hmem, hrun⟩ := List.mem_map.mp (hrequested ▸ List.mem_cons_self)
  obtain ⟨entry, hentry, hended⟩ := Option.bind_eq_some_iff.mp hlast
  have hsplit : log = log.dropLast ++ entry :: [] := (List.dropLast_append_getLast? entry hentry).symm
  have hended' : entry.event.endedRunId = some approval.runId := hrun ▸ hended
  exact ⟨s, log, log.dropLast, entry, approval, hexec, hmem, hsplit, hended',
    approval_settled htrace hforced hmem hsplit hended'⟩

/-- The cancellation of the run is forced while it waits on the approval. -/
def forceCancelledApprovalRun : List (Nat × DriveInput) :=
  approvalRun ++ [(5, .admitCommand (.forceCancelRun 1))]

/-- A forced cancellation forgets the approval: the run ends and the log never settles it. -/
theorem forceCancelled_unsettled :
    ∃ s log, Reachable "session" s log ∧ ∃ before entry approval, approval ∈ requestedApprovals log ∧
      log = before ++ [entry] ∧ entry.event.endedRunId = some approval.runId ∧
      settlements approval.approvalId log = 0 := by
  obtain ⟨⟨s, log⟩, hexec, hrequested, hlast, hzero⟩ :
      ∃ p ∈ (drive "session").exec forceCancelledApprovalRun,
        (requestedApprovals p.2).map (fun approval => (approval.runId, approval.approvalId)) =
          [(1, "approval_1")] ∧ p.2.getLast?.bind (fun entry => entry.event.endedRunId) = some 1 ∧
            settlements "approval_1" p.2 = 0 := by decide +kernel
  obtain ⟨approval, hmem, hids⟩ := List.mem_map.mp (hrequested ▸ List.mem_cons_self)
  obtain ⟨hrun, hid⟩ := Prod.mk.inj hids
  obtain ⟨entry, hentry, hended⟩ := Option.bind_eq_some_iff.mp hlast
  refine ⟨s, log, EventSource.exec_reaches hexec, log.dropLast, entry, approval, hmem, ?_, ?_, ?_⟩
  · exact (List.dropLast_append_getLast? entry hentry).symm
  · exact hrun ▸ hended
  · exact hid ▸ hzero

end Lightspeed.Harness
