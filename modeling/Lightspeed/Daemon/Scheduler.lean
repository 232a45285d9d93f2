import Lightspeed.Daemon.Moves

/-!
# The scheduler

A round of `schedule` is a chain of moves that end queued jobs or start them; one that makes progress
leaves fewer jobs queued, so the loop ends, and it ends with a round that finds no job doomed and starts
none. What the round read of a job's dependencies when it began still holds when the job's turn comes:
nothing else in the round touches a job that is not queued.
-/

namespace Lightspeed.Daemon

open Lib Relation

namespace JobManager

variable {config : JobConfig} {m n : JobManager} {entry entry' : JobEntry} {record : StoredJob}
  {jobId other : JobId} {now : Int} {spawn : JobId → Except ProtocolError Unit}

/-! ## What the scheduler reads -/

/-- Whether a dependency with a status satisfies a policy. -/
def Satisfies (policy : JobDependencyPolicy) (status : JobStatus) : Prop :=
  match policy with
  | .allSucceeded => status = .succeeded
  | .allTerminal => status.isTerminal = true

theorem isDoomed_iff : m.isDoomed record = true ↔
    record.status = .queued ∧ record.dependencyPolicy = .allSucceeded ∧
      ∃ dependency ∈ record.dependsOn, ∀ status, m.status? dependency = some status →
        status.isTerminal = true ∧ status ≠ .succeeded := by
  unfold isDoomed
  rw [Bool.and_eq_true, Bool.and_eq_true, beq_iff_eq, beq_iff_eq, List.any_eq_true, and_assoc]
  refine and_congr_right fun _ => and_congr_right fun _ => exists_congr fun dependency =>
    and_congr_right fun _ => ?_
  cases m.status? dependency <;> simp

theorem isRunnable_iff : m.isRunnable record = true ↔
    record.status = .queued ∧ ∀ dependency ∈ record.dependsOn, ∀ status,
      m.status? dependency = some status → Satisfies record.dependencyPolicy status := by
  unfold isRunnable
  rw [Bool.and_eq_true, beq_iff_eq, List.all_eq_true]
  refine and_congr_right fun _ => forall_congr' fun dependency => imp_congr_right fun _ => ?_
  cases m.status? dependency with
  | none => simp
  | some status => cases record.dependencyPolicy <;> simp [Satisfies]

/-- Every job that is not queued, or not retained, stays as it is. -/
def KeepsSettled (m n : JobManager) : Prop :=
  ∀ jobId, m.status? jobId ≠ some .queued → n.status? jobId = m.status? jobId

theorem KeepsSettled.isDoomed (h : KeepsSettled m n) (hdoomed : m.isDoomed record = true) :
    n.isDoomed record = true := by
  obtain ⟨hqueued, hpolicy, dependency, hmem, hstatus⟩ := isDoomed_iff.mp hdoomed
  refine isDoomed_iff.mpr ⟨hqueued, hpolicy, dependency, hmem, ?_⟩
  have hsettled : m.status? dependency ≠ some .queued := fun hq => nomatch (hstatus _ hq).1
  rwa [h dependency hsettled]

theorem KeepsSettled.startable (h : KeepsSettled m n) (hstartable : m.Startable record) :
    n.Startable record := by
  refine ⟨hstartable.1, fun dependency hmem => ?_⟩
  have hready := hstartable.2 dependency hmem
  split at hready
  · rw [h dependency (by rw [hready]; nofun)]
    exact hready
  · rw [h dependency fun hq => nomatch hready _ hq]
    exact hready

/-- A change of one queued job. -/
structure Changes (m n : JobManager) (entry entry' : JobEntry) : Prop where
  get : m.jobs.get? entry.record.jobId = some entry
  queued : entry.record.status = .queued
  jobId : entry'.record.jobId = entry.record.jobId
  jobs : n.jobs = m.jobs.insert entry'.record.jobId entry'
  tasks : m.tasks <+: n.tasks

theorem Changes.get_self (h : Changes m n entry entry') :
    n.jobs.get? entry.record.jobId = some entry' := by
  rw [h.jobs, h.jobId]
  exact OrdMap.get?_insert_self ..

theorem Changes.get_other (h : Changes m n entry entry') (hne : other ≠ entry.record.jobId) :
    n.jobs.get? other = m.jobs.get? other := by
  rw [h.jobs, h.jobId]
  exact OrdMap.get?_insert_ne _ _ hne.symm

theorem Changes.keepsSettled (h : Changes m n entry entry') : KeepsSettled m n := by
  intro jobId hsettled
  by_cases hid : jobId = entry.record.jobId
  · exfalso
    refine hsettled (status?_eq_some.mpr ⟨entry, ?_, h.queued⟩)
    rw [hid]
    exact h.get
  · unfold status?
    rw [h.get_other hid]

/-! ## Queued jobs are counted down -/

theorem queuedCount_eq : m.queuedCount =
    m.jobs.entries.countP fun pair => pair.2.record.status == .queued := by
  unfold queuedCount OrdMap.values
  rw [← List.countP_eq_length_filter, List.countP_map]
  rfl

theorem Changes.queuedCount (h : Changes m n entry entry') :
    n.queuedCount + 1 =
      m.queuedCount + if entry'.record.status = .queued then 1 else 0 := by
  have hbefore := OrdMap.entries_perm_of_get? h.get
  have hafter := OrdMap.entries_insert_perm m.jobs entry.record.jobId entry'
  rw [queuedCount_eq, queuedCount_eq, h.jobs, h.jobId, hbefore.countP_eq, hafter.countP_eq,
    List.countP_cons, List.countP_cons, h.queued]
  simp only [beq_iff_eq, beq_self_eq_true, if_true]
  omega

/-! ## The doomed jobs -/

/-- A job is there with a property. -/
def HasJob (m : JobManager) (p : StoredJob → Prop) (jobId : JobId) : Prop :=
  ∃ entry, m.jobs.get? jobId = some entry ∧ entry.record.jobId = jobId ∧ p entry.record

theorem failDoomed_changes (now : Int) (hready : HasJob m (m.isDoomed · = true) jobId) :
    ∃ entry entry', Changes m (failDoomed now m jobId) entry entry' ∧ entry.record.jobId = jobId ∧
      SameJob entry.record entry'.record ∧ entry'.record.status = .dependencyFailed ∧
      m.isDoomed entry.record = true ∧ failDoomed now m jobId = m.endJob entry' := by
  obtain ⟨entry, hget, hid, hdoomed⟩ := hready
  have hqueued : entry.record.status = .queued := (isDoomed_iff.mp hdoomed).1
  have hself : m.jobs.get? entry.record.jobId = some entry := by rwa [hid]
  unfold failDoomed
  rw [hget]
  exact ⟨entry,
    { entry with
      pending := none
      record := { entry.record with status := .dependencyFailed, finishedAtMs := some now } },
    ⟨hself, hqueued, rfl, rfl, List.prefix_rfl⟩, hid, ⟨rfl, rfl, rfl, rfl, rfl, rfl, rfl⟩, rfl, hdoomed, rfl⟩

/-- What a round does to the queued jobs up to some point of it. -/
structure Scheduled (m n : JobManager) : Prop where
  chain : ∀ config spares, Chain config spares m n
  settled : KeepsSettled m n
  count : n.queuedCount ≤ m.queuedCount
  tasks : m.tasks <+: n.tasks

theorem Scheduled.refl (m : JobManager) : Scheduled m m := ⟨fun _ _ => .refl, fun _ _ => rfl, le_rfl, List.prefix_rfl⟩

theorem KeepsSettled.trans {o : JobManager} (h : KeepsSettled m n) (h' : KeepsSettled n o) :
    KeepsSettled m o := fun jobId hsettled => by
  have hkept := h jobId hsettled
  rw [h' jobId (by rwa [hkept]), hkept]

theorem Scheduled.trans {o : JobManager} (h : Scheduled m n) (h' : Scheduled n o) :
    Scheduled m o :=
  ⟨fun config spares => (h.chain config spares).trans (h'.chain config spares), h.settled.trans h'.settled,
    h'.count.trans h.count, h.tasks.trans h'.tasks⟩

theorem Scheduled.keysMatch (h : Scheduled m n) (hkeys : KeysMatch m) : KeysMatch n :=
  keysMatch_chain (h.chain default False) hkeys

theorem scheduled_of_steps (h : ReflTransGen Scheduled m n) : Scheduled m n := by
  induction h with
  | refl => exact .refl m
  | tail _ hlast ih => exact ih.trans hlast

theorem Changes.scheduled (h : Changes m n entry entry') (hmove : ∀ config spares, Move config spares m n) :
    Scheduled m n where
  chain config spares := .single (hmove config spares)
  settled := h.keepsSettled
  tasks := h.tasks
  count := by
    have hcount := h.queuedCount
    split_ifs at hcount <;> omega

/-- A job with a property that settled jobs decide still has it when another one has changed. -/
theorem HasJob.besides {p q : StoredJob → Prop} (h : Changes m n entry entry')
    (hkept : ∀ record, p record → q record) (hne : entry.record.jobId ≠ other)
    (hjob : HasJob m p other) : HasJob n q other := by
  obtain ⟨found, hget, hid, hp⟩ := hjob
  exact ⟨found, by rwa [h.get_other hne.symm], hid, hkept _ hp⟩

theorem failDoomed_other {x y : JobId} (hne : x ≠ y) (hx : HasJob m (m.isDoomed · = true) x)
    (hy : HasJob m (m.isDoomed · = true) y) :
    HasJob (failDoomed now m x) ((failDoomed now m x).isDoomed · = true) y := by
  obtain ⟨entry, entry', hchanges, hid, -⟩ := failDoomed_changes now hx
  exact hy.besides hchanges (fun _ => hchanges.keepsSettled.isDoomed) (by rwa [hid])

theorem failDoomed_scheduled (hready : HasJob m (m.isDoomed · = true) jobId) :
    Scheduled m (failDoomed now m jobId) := by
  obtain ⟨entry, entry', hchanges, -, hsame, hstatus, hdoomed, heq⟩ := failDoomed_changes now hready
  refine hchanges.scheduled ?_
  rw [heq]
  exact fun _ _ => .endQueued hchanges.get hchanges.queued hsame (by rw [hstatus]; exact hdoomed)

theorem failDoomed_count (hready : HasJob m (m.isDoomed · = true) jobId) :
    (failDoomed now m jobId).queuedCount < m.queuedCount := by
  obtain ⟨entry, entry', hchanges, -, -, hstatus, -, -⟩ := failDoomed_changes now hready
  have hcount := hchanges.queuedCount
  have hended : entry'.record.status ≠ .queued := by
    rw [hstatus]
    nofun
  rw [if_neg hended] at hcount
  omega

theorem doomed_ready (hkeys : KeysMatch m) :
    ∀ jobId ∈ m.doomed, HasJob m (m.isDoomed · = true) jobId := by
  intro jobId hmem
  obtain ⟨entry, hget, hdoomed⟩ := (mem_jobIds hkeys).mp hmem
  exact ⟨entry, hget, hkeys jobId entry hget, hdoomed⟩

theorem doomed_keysMatch (hkeys : KeysMatch m) : KeysMatch (m.doomed.foldl (failDoomed now) m) := by
  refine List.foldlRecOn m.doomed _ hkeys fun m hkeys jobId _ => ?_
  unfold failDoomed
  split
  · exact hkeys
  · exact hkeys.insert rfl rfl

/-- The doomed jobs end, and each lowers the count of the queued ones. -/
theorem doomed_scheduled (hkeys : KeysMatch m) :
    Scheduled m (m.doomed.foldl (failDoomed now) m) :=
  scheduled_of_steps (foldl_chain (P := fun m jobId => HasJob m (m.isDoomed · = true) jobId)
    (jobIds_nodup hkeys) (fun _ _ _ => failDoomed_other) (fun _ _ hx => .single (failDoomed_scheduled hx))
    (doomed_ready hkeys))

theorem doomed_count (hkeys : KeysMatch m) :
    (m.doomed.foldl (failDoomed now) m).queuedCount + m.doomed.length ≤ m.queuedCount :=
  foldl_measure (P := fun m jobId => HasJob m (m.isDoomed · = true) jobId) (jobIds_nodup hkeys)
    (fun _ _ _ => failDoomed_other) (fun _ _ => failDoomed_count) (doomed_ready hkeys)

/-! ## The runnable jobs -/

theorem mem_busyKeys {key : QueueKey} : key ∈ m.busyKeys ↔
    ∃ jobId entry, m.jobs.get? jobId = some entry ∧ entry.record.status = .running ∧
      entry.record.queueKey = some key := by
  unfold busyKeys
  rw [List.mem_filterMap]
  constructor
  · rintro ⟨record, hrecord, hkey⟩
    obtain ⟨hmem, hrunning⟩ := List.mem_filter.mp hrecord
    obtain ⟨entry, hentry, rfl⟩ := List.mem_map.mp hmem
    obtain ⟨jobId, hget⟩ := OrdMap.mem_values.mp hentry
    exact ⟨jobId, entry, hget, beq_iff_eq.mp hrunning, hkey⟩
  · rintro ⟨jobId, entry, hget, hrunning, hkey⟩
    refine ⟨entry.record, List.mem_filter.mpr ⟨?_, beq_iff_eq.mpr hrunning⟩, hkey⟩
    exact List.mem_map.mpr ⟨entry, OrdMap.mem_values.mpr ⟨jobId, hget⟩, rfl⟩

/-- A pass knows the keys of the running jobs. -/
def Pass.Knows (pass : Pass) : Prop := ∀ key ∈ pass.manager.busyKeys, key ∈ pass.busy

/-- A job's turn can come. -/
def Ready (pass : Pass) (next : Nat ×ₗ JobId) : Prop :=
  pass.Knows ∧ HasJob pass.manager pass.manager.Startable (ofLex next).2

/-- What is left of a job's turn: nothing but a start makes progress, and a start lowers the count of the
queued jobs. -/
structure Advances (pass pass' : Pass) : Prop where
  scheduled : Scheduled pass.manager pass'.manager
  progress : pass'.progressed = true →
    pass.progressed = true ∨ pass'.manager.queuedCount < pass.manager.queuedCount
  stays : pass.progressed = true → pass'.progressed = true

theorem Advances.refl (pass : Pass) : Advances pass pass := ⟨.refl _, .inl, id⟩

theorem Advances.trans {pass pass' pass'' : Pass} (h : Advances pass pass')
    (h' : Advances pass' pass'') : Advances pass pass'' where
  scheduled := h.scheduled.trans h'.scheduled
  progress hprogressed := by
    rcases h'.progress hprogressed with hearlier | hless
    · refine (h.progress hearlier).imp_right fun hless => ?_
      exact lt_of_le_of_lt h'.scheduled.count hless
    · exact .inr (lt_of_lt_of_le hless h.scheduled.count)
  stays hprogressed := h'.stays (h.stays hprogressed)

theorem advances_of_steps {pass pass' : Pass} (h : ReflTransGen (Advances) pass pass') :
    Advances pass pass' := by
  induction h with
  | refl => exact .refl pass
  | tail _ hlast ih => exact ih.trans hlast

/-- A job that is let go is no longer queued afterwards: it runs, or it failed to. -/
theorem startEntry_changes (hget : m.jobs.get? entry.record.jobId = some entry)
    (hqueued : entry.record.status = .queued) (hsame : SameJob entry.record entry'.record)
    (hstartable : m.Startable entry.record)
    (hfree : ∀ key, entry.record.queueKey = some key → key ∉ m.busyKeys) :
    ∃ entry'', Changes m (m.startEntry now spawn entry') entry entry'' ∧
      entry''.record.status ≠ .queued ∧ entry''.record.queueKey = entry.record.queueKey ∧
      ∀ config spares, Move config spares m (m.startEntry now spawn entry') := by
  obtain ⟨hid, hseq, hdeps, hpolicy, hkey, hbirth, hneeds⟩ := hsame
  have hfails : ∀ error, ∃ entry'', Changes m (failStart now m entry' error) entry entry'' ∧
      entry''.record.status ≠ .queued ∧ entry''.record.queueKey = entry.record.queueKey ∧
      ∀ config spares, Move config spares m (failStart now m entry' error) := by
    intro error
    refine ⟨_, ⟨hget, hqueued, ?_, rfl, List.prefix_rfl⟩, ?_, ?_, fun _ _ => .endQueued hget hqueued ?_ trivial⟩
    · exact hid
    · nofun
    · exact hkey
    · exact ⟨hid, hseq, hdeps, hpolicy, hkey, hbirth, hneeds⟩
  unfold startEntry
  split
  · exact hfails _
  · split
    · exact hfails _
    · refine ⟨_, ⟨hget, hqueued, ?_, rfl, List.prefix_append ..⟩, ?_, ?_,
        fun _ _ => .spawn hget hqueued ?_ rfl hstartable hfree⟩
      · exact hid
      · nofun
      · exact hkey
      · exact ⟨hid, hseq, hdeps, hpolicy, hkey, hbirth, hneeds⟩

/-- The entry of a runnable job once the scheduler has seen that it is. -/
theorem startRunnable_cases {pass : Pass} {next : Nat ×ₗ JobId} (hready : Ready pass next) :
    ∃ entry entry', Changes pass.manager (startRunnable now spawn pass next).manager entry entry' ∧
      entry.record.jobId = (ofLex next).2 ∧ entry'.record.queueKey = entry.record.queueKey ∧
      (∀ config spares, Move config spares pass.manager (startRunnable now spawn pass next).manager) ∧
      ((entry'.record.status = .queued ∧ (∃ key ∈ pass.busy, entry.record.queueKey = some key) ∧
          (startRunnable now spawn pass next).busy = pass.busy ∧
          (startRunnable now spawn pass next).progressed = pass.progressed) ∨
        (entry'.record.status ≠ .queued ∧
          (startRunnable now spawn pass next).busy = entry.record.queueKey.toList ++ pass.busy ∧
          (startRunnable now spawn pass next).progressed = true)) := by
  obtain ⟨hknows, entry, hget, hid, hstartable⟩ := hready
  have hqueued : entry.record.status = .queued := hstartable.1
  have hself : pass.manager.jobs.get? entry.record.jobId = some entry := by rwa [hid]
  unfold startRunnable
  rw [hget]
  dsimp only
  generalize hseen : (if entry.record.queuedAtMs.isNone then
    { entry with record := { entry.record with queuedAtMs := some now } } else entry) = seen
  have hsame : SameJob entry.record seen.record ∧ seen.record.status = entry.record.status := by
    rw [← hseen]
    split_ifs
    · exact ⟨⟨rfl, rfl, rfl, rfl, rfl, rfl, rfl⟩, rfl⟩
    · exact ⟨.refl _, rfl⟩
  obtain ⟨hsame, hstatus⟩ := hsame
  by_cases hblocked : entry.record.queueKey.any pass.busy.contains = true
  · rw [if_pos hblocked]
    dsimp only
    obtain ⟨key, hkey, hbusy⟩ := Option.any_eq_true _ _ |>.mp hblocked
    have hbusy : key ∈ pass.busy := by simpa using hbusy
    refine ⟨entry, seen, ⟨hself, hqueued, hsame.jobId, ?_, ?_⟩, hid, hsame.queueKey, ?_,
      .inl ⟨hstatus.trans hqueued, ⟨key, hbusy, hkey⟩, rfl, rfl⟩⟩
    · split_ifs <;> rfl
    · split_ifs <;> exact List.prefix_rfl
    · split_ifs
      · exact fun _ _ => .update hself hsame hstatus
      · exact fun _ _ => .put hself hsame hstatus
  · rw [if_neg hblocked]
    dsimp only
    have hfree : ∀ key, entry.record.queueKey = some key → key ∉ pass.manager.busyKeys := by
      intro key hkey hbusy
      refine hblocked ?_
      rw [hkey]
      simpa using hknows key hbusy
    obtain ⟨entry'', hchanges, hended, hkey, hmove⟩ :=
      startEntry_changes hself hqueued hsame hstartable hfree
    exact ⟨entry, entry'', hchanges, hid, hkey, hmove, .inr ⟨hended, rfl, rfl⟩⟩

theorem startRunnable_advances {pass : Pass} {next : Nat ×ₗ JobId} (hready : Ready pass next) :
    Advances pass (startRunnable now spawn pass next) := by
  obtain ⟨entry, entry', hchanges, -, -, hmove, hend⟩ := startRunnable_cases hready
  refine ⟨hchanges.scheduled hmove, fun hprogressed => ?_, fun hprogressed => ?_⟩
  · rcases hend with ⟨-, -, -, hsame⟩ | ⟨hended, -, -⟩
    · exact .inl (hsame ▸ hprogressed)
    · have hcount := hchanges.queuedCount
      rw [if_neg hended] at hcount
      exact .inr (by omega)
  · rcases hend with ⟨-, -, -, hsame⟩ | ⟨-, -, hstarted⟩
    · exact hsame.trans hprogressed
    · exact hstarted

/-- A pass that knows the running jobs' keys still does after a job's turn. -/
theorem startRunnable_knows {pass : Pass} {next : Nat ×ₗ JobId} (hready : Ready pass next) :
    (startRunnable now spawn pass next).Knows := by
  have hknows := hready.1
  obtain ⟨entry, entry', hchanges, -, hkey, -, hend⟩ := startRunnable_cases hready
  intro key hbusy
  obtain ⟨jobId, found, hget, hrunning, hfound⟩ := mem_busyKeys.mp hbusy
  have hbusy' : jobId ≠ entry.record.jobId → key ∈ pass.busy := fun hne => by
    rw [hchanges.get_other hne] at hget
    exact hknows key (mem_busyKeys.mpr ⟨jobId, found, hget, hrunning, hfound⟩)
  rcases hend with ⟨hqueued, -, hsame, -⟩ | ⟨-, hstarted, -⟩
  · rw [hsame]
    refine hbusy' fun hid => ?_
    rw [hid, hchanges.get_self] at hget
    cases hget
    rw [hqueued] at hrunning
    cases hrunning
  · rw [hstarted]
    by_cases hid : jobId = entry.record.jobId
    · rw [hid, hchanges.get_self] at hget
      cases hget
      rw [hkey] at hfound
      exact List.mem_append_left _ (by rw [hfound]; exact List.mem_singleton_self key)
    · exact List.mem_append_right _ (hbusy' hid)

theorem startRunnable_other {pass : Pass} {x y : Nat ×ₗ JobId} (hne : (ofLex x).2 ≠ (ofLex y).2)
    (hx : Ready pass x) (hy : Ready pass y) : Ready (startRunnable now spawn pass x) y := by
  refine ⟨startRunnable_knows hx, ?_⟩
  obtain ⟨entry, entry', hchanges, hid, -⟩ := startRunnable_cases hx
  exact hy.2.besides hchanges (fun _ => hchanges.keepsSettled.startable) (by rwa [hid])

theorem mem_runnable {next : Nat ×ₗ JobId} : next ∈ m.runnable ↔
    ∃ jobId entry, m.jobs.get? jobId = some entry ∧ m.isRunnable entry.record = true ∧
      next = toLex (entry.record.seq, entry.record.jobId) := by
  unfold runnable
  rw [List.mem_insertionSort, List.mem_map]
  constructor
  · rintro ⟨record, hrecord, rfl⟩
    obtain ⟨hmem, hrunnable⟩ := List.mem_filter.mp hrecord
    obtain ⟨entry, hentry, rfl⟩ := List.mem_map.mp hmem
    obtain ⟨jobId, hget⟩ := OrdMap.mem_values.mp hentry
    exact ⟨jobId, entry, hget, hrunnable, rfl⟩
  · rintro ⟨jobId, entry, hget, hrunnable, rfl⟩
    refine ⟨entry.record, List.mem_filter.mpr ⟨?_, hrunnable⟩, rfl⟩
    exact List.mem_map.mpr ⟨entry, OrdMap.mem_values.mpr ⟨jobId, hget⟩, rfl⟩

/-- The runnable jobs come up once each. -/
theorem runnable_nodup (hkeys : KeysMatch m) :
    (m.runnable.map fun next => (ofLex next).2).Nodup := by
  have hperm : (m.runnable.map fun next => (ofLex next).2).Perm
      (((m.jobs.values.map JobEntry.record).filter m.isRunnable).map StoredJob.jobId) := by
    unfold runnable
    refine ((List.perm_insertionSort _ _).map _).trans ?_
    rw [List.map_map]
    exact .refl _
  exact hperm.nodup_iff.mpr (jobIds_nodup hkeys)

/-! ## A round -/

/-- Where the pass over the runnable jobs begins. -/
def startPass (now : Int) (m : JobManager) : Pass :=
  { manager := m.doomed.foldl (failDoomed now) m
    busy := (m.doomed.foldl (failDoomed now) m).busyKeys
    progressed := !m.doomed.isEmpty }

/-- Where the pass over the runnable jobs ends. -/
def endPass (now : Int) (spawn : JobId → Except ProtocolError Unit) (m : JobManager) : Pass :=
  (m.doomed.foldl (failDoomed now) m).runnable.foldl (startRunnable now spawn) (startPass now m)

theorem sweep_eq : m.sweep now spawn = ((endPass now spawn m).manager, (endPass now spawn m).progressed) :=
  rfl

theorem queued_of_failDoomed {ids : List JobId} (hkeys : KeysMatch m)
    (hget : (ids.foldl (failDoomed now) m).jobs.get? jobId = some entry)
    (hqueued : entry.record.status = .queued) : m.jobs.get? jobId = some entry ∧ jobId ∉ ids := by
  induction ids generalizing m with
  | nil => exact ⟨hget, List.not_mem_nil⟩
  | cons first ids ih =>
    rw [List.foldl_cons] at hget
    unfold failDoomed at hget
    split at hget
    next hnone =>
      obtain ⟨hold, hother⟩ := ih hkeys hget
      refine ⟨hold, List.not_mem_cons_of_ne_of_not_mem (fun hid => ?_) hother⟩
      rw [hid, hnone] at hold
      cases hold
    next found hfound =>
      obtain ⟨hold, hother⟩ := ih (hkeys.insert rfl rfl) hget
      rw [endJob_jobs, OrdMap.get?_insert] at hold
      split_ifs at hold with hid
      · cases hold
        cases hqueued
      · have hid : jobId ≠ first := fun h => hid ((hkeys first found hfound).trans h.symm)
        exact ⟨hold, List.not_mem_cons_of_ne_of_not_mem hid hother⟩

theorem failDoomed_keeps {ids : List JobId} (hget : m.jobs.get? jobId ≠ none) :
    (ids.foldl (failDoomed now) m).jobs.get? jobId ≠ none := by
  refine List.foldlRecOn (motive := fun (n : JobManager) => n.jobs.get? jobId ≠ none) ids _ hget
    fun n hn first _ => ?_
  unfold failDoomed
  split
  · exact hn
  · rw [endJob_jobs, OrdMap.get?_insert]
    split_ifs
    · nofun
    · exact hn

/-- After the doomed jobs have ended, no runnable job misses a dependency whose success it needs. -/
theorem startPass_ready (hkeys : KeysMatch m) :
    ∀ next ∈ (startPass now m).manager.runnable, Ready (startPass now m) next := by
  intro next hnext
  obtain ⟨jobId, entry, hget, hrunnable, rfl⟩ := mem_runnable.mp hnext
  obtain ⟨hqueued, hsatisfied⟩ := isRunnable_iff.mp hrunnable
  obtain ⟨hold, hfine⟩ := queued_of_failDoomed hkeys hget hqueued
  have hhere : (startPass now m).manager.jobs.get? entry.record.jobId = some entry := by
    rwa [doomed_keysMatch hkeys jobId entry hget]
  refine ⟨fun _ hbusy => hbusy, entry, hhere, rfl, hqueued, fun dependency hmem => ?_⟩
  have hready := hsatisfied dependency hmem
  unfold Satisfies at hready
  split
  next hpolicy =>
    rw [hpolicy] at hready
    cases hstatus : (startPass now m).manager.status? dependency with
    | some status => exact congrArg some (hready status hstatus)
    | none =>
      exfalso
      have hmissing : m.status? dependency = none := by
        by_contra hthere
        exact failDoomed_keeps (mt status?_eq_none.mpr hthere) (status?_eq_none.mp hstatus)
      refine hfine ((mem_jobIds hkeys).mpr ⟨entry, hold, isDoomed_iff.mpr
        ⟨hqueued, hpolicy, dependency, hmem, fun status h => ?_⟩⟩)
      rw [hmissing] at h
      cases h
  next hpolicy =>
    rw [hpolicy] at hready
    exact hready

theorem runnable_apart (hkeys : KeysMatch m) :
    m.runnable.Pairwise fun x y => (ofLex x).2 ≠ (ofLex y).2 :=
  List.pairwise_map.mp (runnable_nodup hkeys)

theorem endPass_advances (hkeys : KeysMatch m) :
    Advances (startPass now m) (endPass now spawn m) :=
  advances_of_steps (foldl_chain (P := Ready) (runnable_apart (doomed_keysMatch hkeys))
    (fun _ _ _ => startRunnable_other) (fun _ _ hx => .single (startRunnable_advances hx))
    (startPass_ready hkeys))

theorem sweep_scheduled (hkeys : KeysMatch m) : Scheduled m (m.sweep now spawn).1 :=
  (doomed_scheduled hkeys).trans (endPass_advances hkeys).scheduled

/-- A round that makes progress leaves fewer jobs queued. -/
theorem sweep_count (hkeys : KeysMatch m) (h : (m.sweep now spawn).2 = true) :
    (m.sweep now spawn).1.queuedCount < m.queuedCount := by
  rw [sweep_eq] at h ⊢
  dsimp only at h ⊢
  have hdoomed : (startPass now m).manager.queuedCount + m.doomed.length ≤ m.queuedCount :=
    doomed_count hkeys
  have hadvances : Advances (startPass now m) (endPass now spawn m) :=
    endPass_advances hkeys
  have hcount := hadvances.scheduled.count
  rcases hadvances.progress h with hprogressed | hless
  · have hsome : m.doomed ≠ [] := by
      intro hnone
      have hfalse : (!m.doomed.isEmpty) = true := hprogressed
      rw [hnone] at hfalse
      cases hfalse
    have hlength := List.length_pos_iff.mpr hsome
    omega
  · omega

/-- A round without progress, after which no job is running, found no job doomed and none runnable, and
changed nothing. -/
theorem sweep_rests (hkeys : KeysMatch m) (h : (m.sweep now spawn).2 = false)
    (hidle : ∀ jobId, (m.sweep now spawn).1.status? jobId ≠ some .running) :
    m.doomed = [] ∧ m.runnable = [] ∧ (m.sweep now spawn).1 = m := by
  have hadvances : Advances (startPass now m) (endPass now spawn m) :=
    endPass_advances hkeys
  have hdoomed : m.doomed = [] := by
    by_contra hsome
    have hprogressed : (startPass now m).progressed = true := by
      unfold startPass
      cases hlist : m.doomed with
      | nil => exact absurd hlist hsome
      | cons => rfl
    rw [sweep_eq] at h
    exact absurd h (by rw [hadvances.stays hprogressed]; nofun)
  have hstart : (startPass now m).manager = m := by
    unfold startPass
    rw [hdoomed]
    rfl
  have hbusy : (startPass now m).busy = [] := by
    refine List.eq_nil_iff_forall_not_mem.mpr fun key hkey => ?_
    obtain ⟨jobId, entry, hget, hrunning, -⟩ := mem_busyKeys.mp hkey
    have hstatus : (startPass now m).manager.status? jobId = some .running :=
      status?_eq_some.mpr ⟨entry, hget, hrunning⟩
    refine hidle jobId ?_
    rw [sweep_eq]
    exact (hadvances.scheduled.settled jobId (by rw [hstatus]; nofun)).trans hstatus
  have hrunnable : m.runnable = [] := by
    by_contra hsome
    obtain ⟨first, rest, hlist⟩ := List.exists_cons_of_ne_nil hsome
    have hready : ∀ next ∈ (startPass now m).manager.runnable, Ready (startPass now m) next :=
      startPass_ready hkeys
    rw [hstart, hlist] at hready
    have hfirst := hready first List.mem_cons_self
    have hprogressed : (startRunnable now spawn (startPass now m) first).progressed = true := by
      obtain ⟨entry, entry', -, -, -, -, hend⟩ := startRunnable_cases hfirst
      rcases hend with ⟨-, ⟨key, hkey, -⟩, -, -⟩ | ⟨-, -, hstarted⟩
      · rw [hbusy] at hkey
        cases hkey
      · exact hstarted
    have hapart := runnable_apart hkeys
    rw [hlist] at hapart
    obtain ⟨hothers, hrest⟩ := List.pairwise_cons.mp hapart
    have hlater : Advances (startRunnable now spawn (startPass now m) first)
        (rest.foldl (startRunnable now spawn) (startRunnable now spawn (startPass now m) first)) :=
      advances_of_steps (foldl_chain (P := Ready) hrest (fun _ _ _ => startRunnable_other)
        (fun _ _ hx => .single (startRunnable_advances hx)) fun next hnext =>
          startRunnable_other (hothers next hnext) hfirst (hready next (List.mem_cons_of_mem _ hnext)))
    have hend : (endPass now spawn m).progressed = true := by
      have hmanager : m.doomed.foldl (failDoomed now) m = m := hstart
      unfold endPass
      rw [hmanager, hlist]
      exact hlater.stays hprogressed
    rw [sweep_eq] at h
    exact absurd h (by rw [hend]; nofun)
  refine ⟨hdoomed, hrunnable, ?_⟩
  rw [sweep_eq]
  show (endPass now spawn m).manager = m
  unfold endPass startPass
  rw [hdoomed, List.foldl_nil, hrunnable]
  rfl

/-! ## The loop -/

/-- The loop ends with a round that makes no progress. -/
theorem scheduleLoop_ends {turn : Turn} {fuel round : Nat} (hkeys : KeysMatch m)
    (hfuel : m.queuedCount < fuel) :
    ∃ last now, Scheduled m last ∧ KeysMatch last ∧ (last.sweep now turn.spawn).2 = false ∧
      scheduleLoop turn fuel round m = (last.sweep now turn.spawn).1 := by
  induction fuel generalizing m round with
  | zero => exact absurd hfuel (Nat.not_lt_zero _)
  | succ fuel ih =>
    rw [scheduleLoop]
    dsimp only
    split_ifs with hprogressed
    · have hscheduled : Scheduled m (m.sweep (turn.clock round) turn.spawn).1 := sweep_scheduled hkeys
      have hless := sweep_count hkeys hprogressed
      have hrest := @ih _ (round + 1) (hscheduled.keysMatch hkeys) (by omega)
      obtain ⟨last, now, hlast, hmatch, hrests, heq⟩ := hrest
      exact ⟨last, now, hscheduled.trans hlast, hmatch, hrests, heq⟩
    · exact ⟨m, turn.clock round, .refl m, hkeys, Bool.eq_false_of_not_eq_true hprogressed, rfl⟩

theorem schedule_ends {turn : Turn} (hkeys : KeysMatch m) :
    ∃ last now, Scheduled m last ∧ KeysMatch last ∧ (last.sweep now turn.spawn).2 = false ∧
      m.schedule turn = (last.sweep now turn.spawn).1 :=
  scheduleLoop_ends hkeys (Nat.lt_succ_self _)

theorem schedule_scheduled {turn : Turn} (hkeys : KeysMatch m) : Scheduled m (m.schedule turn) := by
  obtain ⟨last, now, hlast, hmatch, -, heq⟩ := schedule_ends hkeys
  rw [heq]
  exact hlast.trans (sweep_scheduled hmatch)

/-- When the scheduler is done and no job is running, no job is doomed and none is runnable. -/
theorem schedule_rests {turn : Turn} (hkeys : KeysMatch m)
    (hidle : ∀ jobId, (m.schedule turn).status? jobId ≠ some .running) :
    (m.schedule turn).doomed = [] ∧ (m.schedule turn).runnable = [] := by
  obtain ⟨last, now, -, hmatch, hrests, heq⟩ := schedule_ends hkeys
  rw [heq] at hidle ⊢
  obtain ⟨hdoomed, hrunnable, hsame⟩ := sweep_rests hmatch hrests hidle
  rw [hsame]
  exact ⟨hdoomed, hrunnable⟩

end JobManager

end Lightspeed.Daemon
