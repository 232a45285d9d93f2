import Lightspeed.Daemon.Moves

/-!
# What a start adds

A resolved request names each of its jobs once, and its jobs do not wait for each other in a circle: the
search finds one exactly when there is one. A start that goes through adds every job of the request,
queued, and changes no other.
-/

namespace Lightspeed.Daemon

open Lib Relation

section Resolve

variable {config : JobConfig} {params : StartJobsParams} {resolved : List ResolvedJob} {i : Nat}
  {job : ResolvedJob}

/-! ## Resolved requests -/

theorem checkSpec_ids {ids ids' : List JobId} {names names' : OrdMap JobName JobId}
    {indexed : JobSpec × Nat} (h : checkSpec config (ids, names) indexed = .ok (ids', names')) :
    ids' = indexed.1.jobId :: ids ∧ indexed.1.jobId ∉ ids := by
  unfold checkSpec at h
  dsimp only at h
  obtain ⟨⟨⟩, -, h⟩ := bind_eq_ok.mp h
  obtain ⟨⟨⟩, -, h⟩ := bind_eq_ok.mp h
  obtain ⟨⟨⟩, hfresh, h⟩ := bind_eq_ok.mp h
  have hfresh : indexed.1.jobId ∉ ids := require_eq_ok.mp hfresh
  split at h
  · cases h
    exact ⟨rfl, hfresh⟩
  · obtain ⟨⟨⟩, -, h⟩ := bind_eq_ok.mp h
    cases h
    exact ⟨rfl, hfresh⟩

theorem checkSpecs_ids {specs : List (JobSpec × Nat)} {seen seen' : List JobId × OrdMap JobName JobId}
    (hnodup : seen.1.Nodup) (h : specs.foldlM (checkSpec config) seen = .ok seen') :
    seen'.1 = (specs.map fun spec => spec.1.jobId).reverse ++ seen.1 ∧ seen'.1.Nodup := by
  induction specs generalizing seen with
  | nil =>
    cases h
    exact ⟨rfl, hnodup⟩
  | cons spec specs ih =>
    obtain ⟨⟨ids, names⟩, hspec, h⟩ := foldlM_cons_eq_ok.mp h
    obtain ⟨hids, hfresh⟩ := checkSpec_ids hspec
    have hnodup : ids.Nodup := by
      rw [hids]
      exact List.nodup_cons.mpr ⟨hfresh, hnodup⟩
    obtain ⟨hrest, hnodup'⟩ := @ih (ids, names) hnodup h
    refine ⟨?_, hnodup'⟩
    rw [hrest, List.map_cons, List.reverse_cons, List.append_assoc, List.singleton_append]
    show _ ++ ids = _
    rw [hids]

/-- What is known of a resolved request. -/
structure WellResolved (resolved : List ResolvedJob) : Prop where
  nodup : (resolved.map ResolvedJob.jobId).Nodup
  rejects : rejectCycles resolved = .ok ()

theorem resolveStart_wellResolved (h : resolveStart config params = .ok resolved) :
    WellResolved resolved := by
  unfold resolveStart at h
  obtain ⟨⟨⟩, -, h⟩ := bind_eq_ok.mp h
  obtain ⟨⟨ids, names⟩, hcheck, h⟩ := bind_eq_ok.mp h
  obtain ⟨resolved', hresolve, h⟩ := bind_eq_ok.mp h
  obtain ⟨⟨⟩, hcycles, h⟩ := bind_eq_ok.mp h
  cases h
  refine ⟨?_, hcycles⟩
  obtain ⟨hids, hnodup⟩ := checkSpecs_ids List.nodup_nil hcheck
  have hmap : ∀ (specs : List (JobSpec × Nat)) (jobs : List ResolvedJob),
      specs.mapM (resolveJob config names) = .ok jobs →
        jobs.map ResolvedJob.jobId = specs.map fun spec => spec.1.jobId := by
    intro specs
    induction specs with
    | nil =>
      intro jobs h
      cases h
      rfl
    | cons spec specs ih =>
      intro jobs h
      obtain ⟨job, rest, hjob, hrest, rfl⟩ := mapM_cons_eq_ok.mp h
      obtain ⟨dependsOn, -, hjob⟩ := bind_eq_ok.mp hjob
      cases hjob
      rw [List.map_cons, List.map_cons, ih rest hrest]
  rw [hmap _ _ hresolve]
  rw [hids, List.append_nil] at hnodup
  exact List.nodup_reverse.mp hnodup

/-! ## Cycles within a request -/

/-- A job of a request depends on another one of it. -/
def RequestWaits (resolved : List ResolvedJob) (a b : JobId) : Prop :=
  ∃ job ∈ resolved, job.jobId = a ∧ b ∈ job.dependsOn ∧ b ∈ resolved.map ResolvedJob.jobId

theorem index_eq_some {jobId : JobId} {position : Nat}
    (hnodup : (resolved.map ResolvedJob.jobId).Nodup) :
    (OrdMap.ofList (resolved.zipIdx.map fun (job, position) => (job.jobId, position))).get? jobId =
        some position ↔
      ∃ job, resolved[position]? = some job ∧ job.jobId = jobId := by
  have hkeys : (resolved.zipIdx.map fun (job, position) => (job.jobId, position)).map Prod.fst =
      resolved.map ResolvedJob.jobId := by
    rw [List.map_map]
    show resolved.zipIdx.map (ResolvedJob.jobId ∘ Prod.fst) = _
    rw [← List.map_map, List.zipIdx_map_fst]
  have hmem : (jobId, position) ∈ resolved.zipIdx.map (fun (job, position) => (job.jobId, position)) ↔
      ∃ job, resolved[position]? = some job ∧ job.jobId = jobId := by
    simp [List.mem_map, List.mem_zipIdx_iff_getElem?]
  rw [← hmem]
  exact ⟨OrdMap.mem_of_get?_ofList, OrdMap.get?_ofList (by rwa [hkeys])⟩

theorem mem_successors {j : Nat} (hnodup : (resolved.map ResolvedJob.jobId).Nodup) :
    j ∈ successors resolved i ↔ ∃ job next, resolved[i]? = some job ∧ resolved[j]? = some next ∧
      next.jobId ∈ job.dependsOn := by
  unfold successors
  dsimp only
  cases hjob : resolved[i]? with
  | none => simp
  | some job =>
    rw [List.mem_filterMap]
    constructor
    · rintro ⟨dependency, hmem, hindex⟩
      obtain ⟨next, hnext, rfl⟩ := (index_eq_some hnodup).mp hindex
      exact ⟨job, next, rfl, hnext, hmem⟩
    · rintro ⟨job', next, hjob', hnext, hmem⟩
      cases hjob'
      exact ⟨next.jobId, hmem, (index_eq_some hnodup).mpr ⟨next, hnext, rfl⟩⟩

/-- A path among the jobs of a request is one among their positions. -/
theorem positions_of_path {a b : JobId} (hnodup : (resolved.map ResolvedJob.jobId).Nodup)
    (hjob : resolved[i]? = some job) (ha : job.jobId = a) (h : TransGen (RequestWaits resolved) a b) :
    ∃ j next, resolved[j]? = some next ∧ next.jobId = b ∧
      TransGen (fun i j => j ∈ successors resolved i) i j := by
  have hedge : ∀ {i : Nat} {job : ResolvedJob} {a b : JobId}, resolved[i]? = some job →
      job.jobId = a → RequestWaits resolved a b →
        ∃ j next, resolved[j]? = some next ∧ next.jobId = b ∧ j ∈ successors resolved i := by
    intro i job a b hjob ha hwaits
    obtain ⟨job', hmem, ha', hdepends, hb⟩ := hwaits
    obtain rfl : job' = job :=
      List.inj_on_of_nodup_map hnodup hmem (List.mem_of_getElem? hjob) (ha'.trans ha.symm)
    obtain ⟨next, hnext, rfl⟩ := List.mem_map.mp hb
    obtain ⟨j, hj⟩ := List.mem_iff_getElem?.mp hnext
    exact ⟨j, next, hj, rfl, (mem_successors hnodup).mpr ⟨job', next, hjob, hj, hdepends⟩⟩
  induction h with
  | single hab =>
    obtain ⟨j, next, hj, hb, hedge⟩ := hedge hjob ha hab
    exact ⟨j, next, hj, hb, .single hedge⟩
  | tail _ hbc ih =>
    obtain ⟨j, next, hj, hb, hpath⟩ := ih
    obtain ⟨k, last, hk, hc, hlast⟩ := hedge hj hb hbc
    exact ⟨k, last, hk, hc, hpath.tail hlast⟩

/-- The search refuses a request exactly when its jobs wait for each other in a circle. -/
theorem rejectCycles_eq_ok (hnodup : (resolved.map ResolvedJob.jobId).Nodup) :
    rejectCycles resolved = .ok () ↔ Acyclic (RequestWaits resolved) := by
  have hjobs : ∀ i j, j ∈ successors resolved i → i < resolved.length ∧ j < resolved.length := by
    intro i j hij
    obtain ⟨job, next, hi, hj, -⟩ := (mem_successors hnodup).mp hij
    exact ⟨(List.getElem?_eq_some_iff.mp hi).1, (List.getElem?_eq_some_iff.mp hj).1⟩
  unfold rejectCycles
  split
  next hfind =>
    refine iff_of_true rfl fun a hcycle => ?_
    obtain ⟨b, ⟨job, hmem, rfl, -⟩, -⟩ := TransGen.head'_iff.mp hcycle
    obtain ⟨i, hi⟩ := List.mem_iff_getElem?.mp hmem
    obtain ⟨j, next, hj, hid, hpath⟩ := positions_of_path hnodup hi rfl hcycle
    have hij : i = j := by
      have hlt := (List.getElem?_eq_some_iff.mp hi).1
      have hlt' : i < (resolved.map ResolvedJob.jobId).length := by rwa [List.length_map]
      refine (List.getElem?_inj hlt' hnodup).mp ?_
      rw [List.getElem?_map, List.getElem?_map, hi, hj, Option.map_some, Option.map_some, hid]
    rw [← hij] at hpath
    have hmem : i ∈ List.range resolved.length :=
      List.mem_range.mpr (List.getElem?_eq_some_iff.mp hi).1
    exact not_transGen_of_acc (acc_of_findCycle hfind i hmem) hpath
  next cycle hfind =>
    refine iff_of_false nofun fun hacyclic => ?_
    have hcycle : TransGen (fun i j => j ∈ successors resolved i) cycle cycle := by
      refine cycle_of_findCycle ?_ (fun _ h => h) ?_ hfind
      · exact fun i _ j hij => List.mem_range.mpr (hjobs i j hij).2
      · rw [List.length_range]
    refine hacyclic _ (TransGen.lift (fun i => (resolved[i]?.map ResolvedJob.jobId).getD "")
      (fun i j hij => ?_) _ _ hcycle)
    obtain ⟨job, next, hi, hj, hdepends⟩ := (mem_successors hnodup).mp hij
    show RequestWaits resolved ((resolved[i]?.map ResolvedJob.jobId).getD "")
      ((resolved[j]?.map ResolvedJob.jobId).getD "")
    rw [hi, hj]
    exact ⟨job, List.mem_of_getElem? hi, rfl, hdepends,
      List.mem_map_of_mem (List.mem_of_getElem? hj)⟩

end Resolve

namespace JobManager

variable {config : JobConfig} {m : JobManager} {requestId : JobRequestId} {now : Int}
  {resolved : List ResolvedJob} {birth? : JobId → Option Nat} {jobId : JobId} {turn : Turn}

/-! ## What is added -/

theorem insertJob_jobs : (insertJob requestId now birth? m job).jobs =
    m.jobs.insert job.jobId
      { record := newRecord requestId now birth? m job, pending := some job.command } := rfl

/-- The record of the job at a position of a request. -/
def addedRecord (m : JobManager) (requestId : JobRequestId) (now : Int) (resolved : List ResolvedJob)
    (position : Nat) (job : ResolvedJob) : StoredJob :=
  newRecord requestId now (m.birth? resolved)
    { m with nextSeq := m.nextSeq + position, births := m.births + position } job

/-- What adding jobs leaves: the counters go on, the others are as they were, and each is there, with a
record that depends on how many were added before it. -/
theorem insertJobs_spec (jobs : List ResolvedJob) (hnodup : (jobs.map ResolvedJob.jobId).Nodup)
    (m : JobManager) :
    let n := jobs.foldl (insertJob requestId now birth?) m
    n.nextSeq = m.nextSeq + jobs.length ∧ n.births = m.births + jobs.length ∧ n.tasks = m.tasks ∧
      n.log = m.log ∧
      (∀ jobId, jobId ∉ jobs.map ResolvedJob.jobId → n.jobs.get? jobId = m.jobs.get? jobId) ∧
      ∀ i job, jobs[i]? = some job → n.jobs.get? job.jobId = some
        { record := newRecord requestId now birth?
            { m with nextSeq := m.nextSeq + i, births := m.births + i } job
          pending := some job.command } := by
  induction jobs generalizing m with
  | nil => exact ⟨rfl, rfl, rfl, rfl, fun _ _ => rfl, by simp⟩
  | cons job jobs ih =>
    obtain ⟨hfresh, hnodup⟩ := List.nodup_cons.mp hnodup
    obtain ⟨hseq, hbirths, htasks, hlog, hold, hnew⟩ := ih hnodup (insertJob requestId now birth? m job)
    have hseq' : (insertJob requestId now birth? m job).nextSeq = m.nextSeq + 1 := rfl
    have hbirths' : (insertJob requestId now birth? m job).births = m.births + 1 := rfl
    refine ⟨?_, ?_, htasks, hlog, fun jobId hjobId => ?_, fun i added hadded => ?_⟩
    · rw [List.foldl_cons, hseq, hseq', List.length_cons]
      omega
    · rw [List.foldl_cons, hbirths, hbirths', List.length_cons]
      omega
    · rw [List.map_cons, List.mem_cons, not_or] at hjobId
      rw [List.foldl_cons, hold jobId hjobId.2, insertJob_jobs,
        OrdMap.get?_insert_ne _ _ (Ne.symm hjobId.1)]
    · cases i with
      | zero =>
        obtain rfl : job = added := Option.some.inj hadded
        rw [List.foldl_cons, hold job.jobId hfresh, insertJob_jobs, OrdMap.get?_insert_self]
        rfl
      | succ i =>
        rw [List.foldl_cons, hnew i added hadded, hseq', hbirths']
        unfold newRecord
        rw [Nat.add_right_comm, Nat.add_right_comm m.births]
        rfl

theorem get?_insertJobs_old (hnodup : (resolved.map ResolvedJob.jobId).Nodup)
    (h : jobId ∉ resolved.map ResolvedJob.jobId) :
    (m.insertJobs requestId now resolved).jobs.get? jobId = m.jobs.get? jobId :=
  (insertJobs_spec resolved hnodup m).2.2.2.2.1 jobId h

theorem get?_insertJobs_new (hnodup : (resolved.map ResolvedJob.jobId).Nodup)
    (h : resolved[i]? = some job) :
    (m.insertJobs requestId now resolved).jobs.get? job.jobId = some
      { record := m.addedRecord requestId now resolved i job, pending := some job.command } :=
  (insertJobs_spec resolved hnodup m).2.2.2.2.2 i job h

/-- A request goes through: none of its jobs is there, and every dependency is known. -/
def Admits (m : JobManager) (requestId : JobRequestId) (resolved : List ResolvedJob) : Prop :=
  m.replayOrConflict requestId resolved = .ok none ∧ m.checkDependencies resolved = .ok ()

theorem Admits.fresh (h : Admits m requestId resolved) :
    ∀ jobId ∈ resolved.map ResolvedJob.jobId, m.jobs.get? jobId = none := by
  have hreplay := h.1
  unfold replayOrConflict at hreplay
  split_ifs at hreplay with hsome
  · obtain ⟨summaries, -, hreplay⟩ := bind_eq_ok.mp hreplay
    cases hreplay
  · intro jobId hmem
    obtain ⟨job, hjob, rfl⟩ := List.mem_map.mp hmem
    by_contra hthere
    obtain ⟨entry, hget⟩ := Option.ne_none_iff_exists'.mp hthere
    refine hsome (List.any_eq_true.mpr ⟨job, hjob, ?_⟩)
    exact OrdMap.contains_iff.mpr ⟨entry, hget⟩

/-- The section of a start either adds the jobs of the request or changes nothing. -/
theorem start_cases (m : JobManager) (requestId : JobRequestId) (resolved : List ResolvedJob) (now : Int) :
    (Admits m requestId resolved ∧ (m.start requestId resolved now).1 =
        m.insertJobs requestId now resolved ∧
      (m.start requestId resolved now).2 = .startWrite (resolved.map ResolvedJob.jobId)
        (m.insertJobs requestId now resolved).store.sent) ∨
      (¬ Admits m requestId resolved ∧ (m.start requestId resolved now).1 = m ∧
        ∃ answer, (m.start requestId resolved now).2 = .over (.started answer)) := by
  unfold start Admits
  split
  next hreplay => exact .inr ⟨fun h => (nomatch hreplay.symm.trans h.1), rfl, _, rfl⟩
  next hreplay => exact .inr ⟨fun h => (nomatch hreplay.symm.trans h.1), rfl, _, rfl⟩
  next hreplay =>
    split
    next hcheck => exact .inr ⟨fun h => (nomatch hcheck.symm.trans h.2), rfl, _, rfl⟩
    next hcheck => exact .inl ⟨⟨hreplay, hcheck⟩, rfl, rfl⟩

end JobManager

end Lightspeed.Daemon
