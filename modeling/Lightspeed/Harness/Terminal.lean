import Lightspeed.Harness.PromiseLedger
import Lightspeed.Harness.Accepted

/-!
# Appends that end a run

The drive adds the cancellations that the end of a run owes its promises to whatever append ends it. Each of
them is pending when the run ends, and none of them twice, so that the reducer takes them all.
-/

namespace Lightspeed.Harness

open Lib

variable {s t u : CoreAgentState} {proposal : CoreAgentEventProposal} {ms : Nat}
  {front : List CoreAgentEventProposal} {runId : RunId} {ids : List PromiseId}

/-- A promise that is pending. -/
def CoreAgentState.Owes (s : CoreAgentState) (id : PromiseId) : Prop :=
  ∃ promise, s.promises.promises.get? id = some promise ∧ promise.status = .pending

/-- Pruning drops no promise that is pending. -/
theorem CoreAgentState.Owes.prune {id : PromiseId} (h : s.Owes id) (hsettled : SettledInv s)
    (hpromises : t.promises = (pruneTerminalPromises s).promises) : t.Owes id := by
  obtain ⟨promise, hget, hpending⟩ := h
  refine ⟨promise, ?_, hpending⟩
  rw [hpromises]
  simp only [pruneTerminalPromises, CoreAgentState.setPromises, OrdMap.get?_filter,
    Option.filter_eq_some_iff, decide_eq_true_eq]
  refine ⟨hget, fun hdropped => ?_⟩
  obtain ⟨settled, hgetSettled, hterminal⟩ := (hsettled.exact id).mp (List.mem_of_mem_take hdropped)
  obtain rfl : promise = settled := Option.mem_unique hget hgetSettled
  rw [hpending] at hterminal
  cases hterminal

/-- Distinct promises that are pending are cancelled one after the other. -/
theorem cancellations_commit {propose : PromiseId → CoreAgentEventProposal}
    (hpropose : ∀ id, (propose id).event = .promise (.cancelled id)) (hids : ids.Nodup)
    (howed : ∀ id ∈ ids, s.Owes id) : ∃ t, Commits ms s (ids.map propose) t := by
  induction ids generalizing s with
  | nil => exact ⟨s, commits_nil.mpr rfl⟩
  | cons id rest ih =>
    obtain ⟨hnot, hrest⟩ := List.nodup_cons.mp hids
    obtain ⟨promise, hget, hpending⟩ := howed id List.mem_cons_self
    let next := s.setPromises (s.promises.settle id { promise with status := .cancelled })
    have hnext : applyEventKind s ((propose id).entry s.nextSeq ms) = .ok next := by
      have hevent : ((propose id).entry s.nextSeq ms).event = .promise (.cancelled id) := by
        change (propose id).event.stored = _
        rw [hpropose id]
        rfl
      rw [applyEventKind, hevent]
      exact promiseCancelled_eq_ok.mpr ⟨promise, hget, hpending, rfl⟩
    obtain ⟨t, ht⟩ := ih (s := s.reducedAt next) hrest fun other hother => by
      obtain ⟨held, hheld, hstatus⟩ := howed other (List.mem_cons_of_mem _ hother)
      refine ⟨held, ?_, hstatus⟩
      change (s.promises.promises.insert id _).get? other = some held
      rw [OrdMap.get?_insert_ne _ _ (ne_of_mem_of_not_mem hother hnot).symm]
      exact hheld
    exact ⟨t, commits_cons.mpr ⟨next, hnext, ht⟩⟩

theorem mem_pending {promise : Promise} (hsettled : SettledInv s) (h : promise ∈ s.promises.pending) :
    s.promises.promises.get? promise.promiseId = some promise ∧ promise.status = .pending := by
  obtain ⟨hmem, hpending⟩ := List.mem_filter.mp h
  obtain ⟨id, hget⟩ := OrdMap.mem_values.mp hmem
  rw [hsettled.named id promise hget]
  exact ⟨hget, by simpa using hpending⟩

theorem pending_nodup (hsettled : SettledInv s) :
    (s.promises.pending.map Promise.promiseId).Nodup := by
  have hkeys : s.promises.promises.values.map Promise.promiseId = s.promises.promises.keys := by
    unfold OrdMap.values OrdMap.keys
    rw [List.map_map]
    refine List.map_congr_left fun stored hstored => ?_
    exact hsettled.named stored.1 stored.2 (OrdMap.get?_eq_some_iff.mpr hstored)
  have hall : (s.promises.promises.values.map Promise.promiseId).Nodup :=
    hkeys ▸ OrdMap.keys_nodup _
  exact hall.sublist (List.filter_sublist.map _)

/-- What the end of a run owes is pending, and owed once. -/
theorem promiseCancellations_owed (hsettled : SettledInv s) (cancelled : List PromiseId)
    (runId : RunId) :
    (promiseCancellations s cancelled runId).Nodup ∧
      ∀ id ∈ promiseCancellations s cancelled runId, s.Owes id := by
  constructor
  · refine ((pending_nodup hsettled).sublist ?_).filter _
    exact List.filter_sublist.map _
  · intro id hid
    obtain ⟨promise, hmem, rfl⟩ := List.mem_map.mp (List.mem_filter.mp hid).1
    obtain ⟨hget, hpending⟩ := mem_pending hsettled (List.mem_filter.mp hmem).1
    exact ⟨promise, hget, hpending⟩

/-- The side effects of an append whose last event is the only one that ends a run. -/
theorem sideEffects_last (hfront : ∀ proposal ∈ front, proposal.event.terminalRunId = none)
    (hlast : proposal.event.terminalRunId = some runId) :
    withRunTerminalSideEffects s (front ++ [proposal]) = front ++ proposal ::
      (promiseCancellations s [] runId).map
        (fun id => runProposal runId (.promise (.cancelled id))) := by
  unfold withRunTerminalSideEffects
  induction front with
  | nil =>
    rw [List.nil_append, runTerminalSideEffects, hlast]
    simp [runTerminalSideEffects]
  | cons first rest ih =>
    rw [List.cons_append, runTerminalSideEffects, hfront first List.mem_cons_self]
    dsimp only
    rw [ih fun proposal hmem => hfront proposal (List.mem_cons_of_mem _ hmem), List.cons_append]

/-- Whatever is taken up to the end of a run is taken with what the run's promises are owed. -/
theorem terminal_commits {m : CoreAgentState} (hsettled : SettledInv s)
    (hfront : ∀ proposal ∈ front, proposal.event.terminalRunId = none)
    (hlast : proposal.event.terminalRunId = some runId) (hcommit : Commits ms s front u)
    (hpromises : u.promises = s.promises)
    (hend : applyEventKind u (proposal.entry u.nextSeq ms) = .ok m) :
    ∃ t, Commits ms s (withRunTerminalSideEffects s (front ++ [proposal])) t := by
  have hprune : ((proposal.entry u.nextSeq ms).event).mayPrune = true := by
    change proposal.event.stored.mayPrune = true
    cases hevent : proposal.event with
    | run event =>
      rw [hevent] at hlast
      cases event <;> first | rfl | cases hlast
    | _ => rw [hevent] at hlast; cases hlast
  have hended : applyEvent u (proposal.entry u.nextSeq ms) = .ok (u.reducedAt m) :=
    applyEvent_eq_ok.mpr ⟨rfl, m, hend, rfl⟩
  have hpruned := applyEvent_prunes hprune hended
  obtain ⟨hids, howed⟩ := promiseCancellations_owed hsettled [] runId
  have howed' : ∀ id ∈ promiseCancellations s [] runId, (u.reducedAt m).Owes id := by
    intro id hid
    refine (howed id hid).prune hsettled ?_
    rw [hpruned]
    simp only [pruneTerminalPromises, CoreAgentState.setPromises, hpromises]
  obtain ⟨t, ht⟩ : ∃ t, Commits ms (u.reducedAt m) ((promiseCancellations s [] runId).map
      (fun id => runProposal runId (.promise (.cancelled id)))) t :=
    cancellations_commit (fun _ => rfl) hids howed'
  rw [sideEffects_last hfront hlast]
  exact ⟨t, commits_append.mpr ⟨u, hcommit, commits_cons.mpr ⟨m, hend, ht⟩⟩⟩

end Lightspeed.Harness
