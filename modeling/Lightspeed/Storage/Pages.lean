import Lightspeed.Storage.Removal

/-!
# Reading a log in pages

`read_after` answers with the entries after a number, as many as a page may hold, and looks one entry
further to say whether the log ends there. `read_range` drops what comes after the end of the range.
`read_entries_through` turns page after page. Over a log that is numbered from one a page is a window of the
log, and the pages are windows that begin where the one before ended.
-/

namespace Lightspeed.Storage

open Lib Harness

/-! ## Pages -/

/-- `SessionPage`. -/
structure SessionPage where
  entries : List CoreAgentEntry
  nextAfter : Option EventSeq
  complete : Bool

/-- `ReadSessionEvents`. -/
structure ReadSessionEvents where
  sessionId : SessionId
  after : Option EventSeq
  limit : Nat

/-- `ReadSessionEventRange`. -/
structure ReadSessionEventRange where
  sessionId : SessionId
  after : EventSeq
  through : EventSeq
  limit : Nat

/-- What a replay of a log fails with: an error of the store or of the reducer, or a text. -/
inductive ReplayError where
  | store (error : SessionStoreError)
  | reducer (error : DomainError)
  | text (message : String)
  deriving DecidableEq

namespace Store

variable (store : Store)

/-- `read_after`. -/
def readAfter (request : ReadSessionEvents) : Stored SessionPage := do
  require (request.limit ≠ 0) (.invalidLimit 0)
  let entries ← store.effectiveEntries request.sessionId
  let selected := (entries.filter fun entry => request.after.all (· < entry.seq)).take (request.limit + 1)
  let complete : Bool := selected.length ≤ request.limit
  let selected := if complete then selected else selected.take request.limit
  .ok ⟨selected, selected.getLast?.map CoreAgentEntry.seq, complete⟩

/-- `read_range`. -/
def readRange (request : ReadSessionEventRange) : Stored SessionPage := do
  require (request.limit ≠ 0) (.invalidLimit 0)
  let page ← store.readAfter ⟨request.sessionId, some request.after, request.limit⟩
  let entries := page.entries.filter fun entry => entry.seq ≤ request.through
  let last := entries.getLast?
  .ok ⟨entries, last.map CoreAgentEntry.seq,
    page.complete || last.all fun entry => request.through ≤ entry.seq⟩

/-- The check at the end of `read_entries_through`. -/
def endsAt (after through : EventSeq) : Except ReplayError Unit :=
  require (after = through) (.text s!"effective session log ended at {after}, expected {through}")

/-- `read_entries_through`, as far as a number of turns goes. -/
def readEntriesThrough (limit : Nat) (sessionId : SessionId) :
    Nat → EventSeq → EventSeq → Option (Except ReplayError (List CoreAgentEntry))
  | 0, _, _ => none
  | turns + 1, after, through =>
    if after < through then
      match store.readRange ⟨sessionId, after, through, limit⟩ with
      | .error error => some (.error (.store error))
      | .ok page =>
        match page.entries.getLast? with
        | none => some (.error (.text s!"effective session log has a gap after seq {after}"))
        | some last =>
          if page.complete then some ((endsAt last.seq through).map fun _ => page.entries)
          else (readEntriesThrough limit sessionId turns last.seq through).map fun rest =>
            rest.map (page.entries ++ ·)
    else some ((endsAt after through).map fun _ => [])

end Store

/-- The entries that a checkpoint's replay asks for at once. -/
def checkpointReadPage : Nat := 512

namespace Store

variable {store store' : Store} {sessionId source : SessionId} {log : List CoreAgentEntry}
  {after through limit : Nat}

/-! ## One page -/

theorem readAfter_eq (hlog : store.effectiveEntries sessionId = .ok log)
    (hnumbered : Numbered CoreAgentEntry.seq 1 log) (hlimit : 1 ≤ limit) :
    store.readAfter ⟨sessionId, some after, limit⟩ =
      .ok ⟨(log.drop after).take limit, ((log.drop after).take limit).getLast?.map CoreAgentEntry.seq,
        decide (log.length ≤ after + limit)⟩ := by
  have hne : limit ≠ 0 := by omega
  have hafter : log.filter (fun entry => (some after).all (· < entry.seq)) = log.drop after := by
    have hfilter : log.filter (fun entry => after < entry.seq) = log.drop (after + 1 - 1) :=
      hnumbered.filter_after
    rwa [Nat.add_sub_cancel] at hfilter
  have hcomplete : decide (((log.drop after).take (limit + 1)).length ≤ limit) =
      decide (log.length ≤ after + limit) := by
    rw [decide_eq_decide, List.length_take, List.length_drop]
    omega
  have hselected : (if decide (log.length ≤ after + limit) then (log.drop after).take (limit + 1)
      else ((log.drop after).take (limit + 1)).take limit) = (log.drop after).take limit := by
    split_ifs with h
    · have hshort : (log.drop after).length ≤ limit := by
        rw [List.length_drop]
        have hle := of_decide_eq_true h
        omega
      rw [List.take_of_length_le hshort, List.take_of_length_le (Nat.le_succ_of_le hshort)]
    · rw [List.take_take, Nat.min_eq_left (Nat.le_succ _)]
  unfold readAfter
  dsimp only
  rw [require_pos hne, ok_bind, hlog, ok_bind, hafter, hcomplete, hselected]

/-- The last entry of a window has the number that the window goes up to. -/
theorem exists_getLast?_window (hnumbered : Numbered CoreAgentEntry.seq 1 log) {count : Nat}
    (hcount : 0 < count) (hlength : after + count ≤ log.length) :
    ∃ last, ((log.drop after).take count).getLast? = some last ∧ last.seq = after + count := by
  have hwindow := (hnumbered.drop (Nat.le_of_add_right_le hlength)).take count
  have hsize : ((log.drop after).take count).length = count := by
    rw [List.length_take, List.length_drop]
    omega
  cases hlast : ((log.drop after).take count).getLast? with
  | none =>
    rw [List.getLast?_eq_none_iff.mp hlast] at hsize
    exact absurd hsize (Nat.ne_of_lt hcount)
  | some last =>
    refine ⟨last, rfl, ?_⟩
    have hseq := hwindow.getLast hlast
    rw [hsize, Nat.add_assoc, Nat.add_comm 1] at hseq
    exact Nat.succ.inj hseq

/-- A page of a range is the window that the limit and the range leave, and is complete where the range
ends. -/
theorem readRange_eq (hlog : store.effectiveEntries sessionId = .ok log)
    (hnumbered : Numbered CoreAgentEntry.seq 1 log) (hlimit : 1 ≤ limit) (hafter : after < through)
    (hthrough : through ≤ log.length) :
    store.readRange ⟨sessionId, after, through, limit⟩ =
      .ok ⟨(log.drop after).take (min limit (through - after)), some (after + min limit (through - after)),
        decide (through ≤ after + limit)⟩ := by
  have hne : limit ≠ 0 := by omega
  have hentries : ((log.drop after).take limit).filter (fun entry => entry.seq ≤ through) =
      (log.drop after).take (min limit (through - after)) := by
    have hwindow := (hnumbered.drop (Nat.le_trans (Nat.le_of_lt hafter) hthrough)).take limit
    have hcount : through + 1 - (1 + after) = through - after := by omega
    rw [hwindow.filter_through, hcount, List.take_take, Nat.min_comm]
  have hpos : 0 < min limit (through - after) := by omega
  have hfits : after + min limit (through - after) ≤ log.length := by omega
  obtain ⟨last, hlast, hseq⟩ := exists_getLast?_window hnumbered hpos hfits
  have hcomplete : (decide (log.length ≤ after + limit) || decide (through ≤ last.seq)) =
      decide (through ≤ after + limit) := by
    rw [hseq, ← Bool.decide_or, decide_eq_decide]
    omega
  unfold readRange
  dsimp only
  rw [require_pos hne, ok_bind, readAfter_eq hlog hnumbered hlimit, ok_bind]
  dsimp only
  rw [hentries, hlast]
  show Except.ok (SessionPage.mk _ (some last.seq) _) = _
  rw [Option.all_some, hcomplete, hseq]

/-! ## Page after page -/

/-- The pages of a range are the entries of the range. -/
theorem readEntriesThrough_eq (hlog : store.effectiveEntries sessionId = .ok log)
    (hnumbered : Numbered CoreAgentEntry.seq 1 log) (hlimit : 1 ≤ limit) (hthrough : through ≤ log.length)
    {turns : Nat} (hafter : after ≤ through) (hturns : through - after < turns) :
    store.readEntriesThrough limit sessionId turns after through =
      some (.ok ((log.drop after).take (through - after))) := by
  induction turns generalizing after with
  | zero => omega
  | succ turns ih =>
    rw [readEntriesThrough]
    split_ifs with hmore
    · have hmore : after < through := hmore
      have hpos : 0 < min limit (through - after) := by omega
      have hfits : after + min limit (through - after) ≤ log.length := by omega
      obtain ⟨last, hlast, hseq⟩ := exists_getLast?_window hnumbered hpos hfits
      rw [readRange_eq hlog hnumbered hlimit hmore hthrough]
      dsimp only
      rw [hlast]
      dsimp only
      rw [hseq]
      split_ifs with hend
      · -- The range ends within the page.
        have hle := of_decide_eq_true hend
        have hcount : min limit (through - after) = through - after := by omega
        have hlastSeq : after + (through - after) = through := by omega
        rw [hcount, hlastSeq, endsAt, require_pos rfl]
        rfl
      · have hgt : ¬ through ≤ after + limit := fun hle => hend (decide_eq_true hle)
        have hcount : min limit (through - after) = limit := by omega
        have hnext : after + limit ≤ through := by omega
        have hfewer : through - (after + limit) < turns := by omega
        have htotal : limit + (through - (after + limit)) = through - after := by omega
        rw [hcount, ih hnext hfewer, Option.map_some]
        show some (Except.ok ((log.drop after).take limit ++ _)) = _
        rw [window_append, htotal]
    · have heq : after = through := Nat.le_antisymm hafter (Nat.le_of_not_lt hmore)
      rw [heq, endsAt, require_pos rfl, Nat.sub_self, List.take_zero]
      rfl

/-! ## Forks -/

/-- A fork's log: its source's entries up to the branch point, and its own entries from there on. -/
theorem Sound.fork_log {record : SessionRecord} {branchSeq : EventSeq} (sound : store.Sound)
    (hrecord : store.records.get? sessionId = some record)
    (hbranch : record.branch = some (source, branchSeq)) :
    ∃ inherited own, store.effectiveEntries source = .ok inherited ∧
      store.entries.get? sessionId = some own ∧
      store.effectiveEntries sessionId =
        .ok (inherited.filter (fun entry => entry.seq ≤ branchSeq) ++ own) ∧
      own.map CoreAgentEntry.seq = List.range' (branchSeq + 1) own.length := by
  obtain ⟨lineage, log, hreadable⟩ := sound sessionId (OrdMap.mem_keys.mpr ⟨record, hrecord⟩)
  cases hreadable with
  | root holds =>
    obtain rfl := Option.mem_unique hrecord holds.stored
    rw [holds.branches] at hbranch
    cases hbranch
  | @fork _ other lineage inherited own point _ readable within holds fresh =>
    obtain rfl := Option.mem_unique hrecord holds.stored
    rw [holds.branches] at hbranch
    obtain ⟨rfl, rfl⟩ := Prod.mk.inj (Option.some.inj hbranch)
    refine ⟨inherited, own, readable.effectiveEntries, holds.kept, ?_, holds.numbered⟩
    rw [readable.numbered.filter_through, Nat.add_sub_cancel]
    exact (Readable.fork readable within holds fresh).effectiveEntries

/-- Appends to other sessions leave what a session reads. -/
theorem Sound.effectiveEntries_appends {walks : CoreAgentEvent → Bool}
    {requests : List AppendSessionEvents} (sound : store.Sound)
    (hid : sessionId ∈ store.records.keys) (hlog : store.effectiveEntries sessionId = .ok log)
    (hothers : ∀ request ∈ requests, request.sessionId ≠ sessionId)
    (h : (sessionStore walks).exec store (requests.map .append) = some store') :
    store'.effectiveEntries sessionId = .ok log := by
  induction requests generalizing store with
  | nil =>
    obtain rfl : store = store' := by simpa [Machine.exec] using h
    exact hlog
  | cons request requests ih =>
    rw [List.map_cons, Machine.exec, List.foldlM_cons, Option.bind_eq_bind, Option.bind_eq_some_iff] at h
    obtain ⟨next, hnext, h⟩ := h
    obtain ⟨committed, happend⟩ := map_fst_eq_ok (step_eq_some.mp hnext)
    obtain ⟨lineage, found, hreadable, hreadable'⟩ :=
      sound.readable closed_nil (fun id _ => grows_append happend id) hid List.not_mem_nil
    have hne : sessionId ≠ request.sessionId := (hothers request List.mem_cons_self).symm
    rw [if_neg hne, List.append_nil] at hreadable'
    have hsame : found = log := Except.ok.inj (hreadable.effectiveEntries.symm.trans hlog)
    apply ih (sound.append happend) (hreadable'.mem_keys _ List.mem_cons_self)
    · exact hsame ▸ hreadable'.effectiveEntries
    · exact fun other hother => hothers other (List.mem_cons_of_mem _ hother)
    · exact h

/-- In every run that severs no fork from its source, the pages of a range of any session are the entries of
the range, and a fork reads its source's entries and then its own, whatever is appended to other sessions. -/
theorem paged_log_exact {walks : CoreAgentEvent → Bool} {steps : List (Store × StoreCall)}
    (run : (sessionStore walks).Run steps store)
    (hkeeps : ∀ step ∈ steps, step.1.severs step.2 = false) {record : SessionRecord}
    (hrecord : store.records.get? sessionId = some record) :
    ∃ log, store.effectiveEntries sessionId = .ok log ∧ record.head.getD 0 = log.length ∧
      log.map CoreAgentEntry.seq = List.range' 1 log.length ∧
      (∀ after through limit turns, after ≤ through → through ≤ record.head.getD 0 → 1 ≤ limit →
        through - after < turns →
        store.readEntriesThrough limit sessionId turns after through =
          some (.ok (log.filter fun entry => after < entry.seq ∧ entry.seq ≤ through))) ∧
      (∀ source branchSeq, record.branch = some (source, branchSeq) →
        ∃ inherited own, store.effectiveEntries source = .ok inherited ∧
          store.entries.get? sessionId = some own ∧
          log = inherited.filter (fun entry => entry.seq ≤ branchSeq) ++ own ∧
          own.map CoreAgentEntry.seq = List.range' (branchSeq + 1) own.length) ∧
      ∀ (requests : List AppendSessionEvents) (store' : Store),
        (∀ request ∈ requests, request.sessionId ≠ sessionId) →
        (sessionStore walks).exec store (requests.map .append) = some store' →
        store'.effectiveEntries sessionId = .ok log := by
  have sound := run_sound run hkeeps
  have hid : sessionId ∈ store.records.keys := OrdMap.mem_keys.mpr ⟨record, hrecord⟩
  obtain ⟨lineage, log, hreadable⟩ := sound sessionId hid
  have hlog := hreadable.effectiveEntries
  have hnumbered := hreadable.numbered
  have hhead : record.head.getD 0 = log.length := by
    obtain ⟨found, hfound, -, hfoundHead⟩ := hreadable.exists_record
    obtain rfl := Option.mem_unique hfound hrecord
    rw [hfoundHead, getD_positionFromNonzeroSeq]
  refine ⟨log, hlog, hhead, hnumbered, ?_, ?_, ?_⟩
  · intro after through limit turns hafter hthrough hlimit hturns
    rw [readEntriesThrough_eq hlog hnumbered hlimit (hhead ▸ hthrough) hafter hturns,
      filter_between hnumbered]
  · intro source branchSeq hbranch
    obtain ⟨inherited, own, hinherited, hown, hfork, hownNumbered⟩ := sound.fork_log hrecord hbranch
    exact ⟨inherited, own, hinherited, hown, Except.ok.inj (hlog.symm.trans hfork), hownNumbered⟩
  · intro requests store' hothers hexec
    exact sound.effectiveEntries_appends hid hlog hothers hexec

/-! ## Samples -/

end Store

/-- The event that opens a session. -/
def openingEvent : UncommittedStoredEvent where
  observedAtMs := 1
  event := .lifecycle (.opened { model := { apiKind := .openAiResponses, providerId := "openai", model := "model" } })

/-- A session with two entries, and a fork at the first one that went on by itself. -/
def forkedCalls : List StoreCall :=
  [.createSession { sessionId := "source", createdAtMs := 0 },
    .append { sessionId := "source", expectedHead := none, events := [openingEvent, openingEvent] },
    .createForkedSession
      { sourceSessionId := "source", sessionId := "fork", sourceSeq := 1, createdAtMs := 2 },
    .append { sessionId := "fork", expectedHead := some 1, events := [openingEvent, openingEvent] }]

/-- A session that is forked before it opens, and then discarded, and an event of the fork. -/
def severedCalls : List StoreCall :=
  [.createSession { sessionId := "source", createdAtMs := 0 },
    .createForkedSession
      { sourceSessionId := "source", sessionId := "fork", sourceSeq := 0, createdAtMs := 0 },
    .discardUnopenedSession "source",
    .append { sessionId := "fork", expectedHead := none, events := [openingEvent] }]

/-- What a trace of calls shows of the session `fork`: whether a step severed one, its branch, its head, and
the numbers that pages of one entry read after its first one. -/
def forkReadOut (trace : List (Store × StoreCall) × Store) :
    Option (Bool × Option (SessionId × EventSeq) × Option EventSeq × Stored (List EventSeq)) :=
  (trace.2.records.get? "fork").map fun record =>
    (trace.1.all fun step => !step.1.severs step.2, record.branch, record.head,
      (trace.2.effectiveEntries "fork").map fun log => log.map CoreAgentEntry.seq)

theorem forkReadOut_forked :
    ((sessionStore fun _ => true).trace {} forkedCalls).bind forkReadOut =
      some (true, some ("source", 1), some 3, .ok [1, 2, 3]) := by
  decide +kernel

namespace Store

theorem paged_log_exact_forked : ∃ store log,
    (sessionStore fun _ => true).Reaches store ∧ store.effectiveEntries "fork" = .ok log ∧
      log.map CoreAgentEntry.seq = [1, 2, 3] ∧
      store.readEntriesThrough 1 "fork" 4 0 3 = some (.ok log) := by
  obtain ⟨⟨steps, store⟩, htrace, hread⟩ := Option.bind_eq_some_iff.mp forkReadOut_forked
  obtain ⟨record, hrecord, hread⟩ := Option.map_eq_some_iff.mp hread
  obtain ⟨hkeeps, hread⟩ := Prod.mk.inj hread
  obtain ⟨-, hread⟩ := Prod.mk.inj hread
  obtain ⟨hhead, hseqs⟩ := Prod.mk.inj hread
  have hrun : (sessionStore fun _ => true).Run ([] ++ steps) store := (Machine.Run.init rfl).trace htrace
  have hall : ∀ step ∈ [] ++ steps, step.1.severs step.2 = false := fun step hstep => by
    have hone := List.all_eq_true.mp hkeeps step hstep
    simpa using hone
  obtain ⟨log, hlog, hlength, hnumbers, hpages, -⟩ := paged_log_exact hrun hall hrecord
  rw [hlog] at hseqs
  have hseq : log.map CoreAgentEntry.seq = [1, 2, 3] := Except.ok.inj hseqs
  have hrange := hpages 0 3 1 4 (by decide) (by rw [hhead]; decide) (by decide) (by decide)
  have hwhole : log.filter (fun entry => 0 < entry.seq ∧ entry.seq ≤ 3) = log := by
    apply List.filter_eq_self.mpr
    intro entry hentry
    have hmem : entry.seq ∈ [1, 2, 3] := hseq ▸ List.mem_map_of_mem hentry
    have hcases : entry.seq = 1 ∨ entry.seq = 2 ∨ entry.seq = 3 := by simpa using hmem
    rcases hcases with h | h | h <;> rw [h] <;> rfl
  rw [hwhole] at hrange
  exact ⟨store, log, ⟨_, hrun⟩, hlog, hseq, hrange⟩

theorem forkReadOut_severed :
    ((sessionStore fun _ => true).trace {} severedCalls).bind forkReadOut =
      some (false, some ("source", 0), some 1, .error (.sessionNotFound "source")) := by
  decide +kernel

/-- The fork of a session that was discarded has an entry, and no page reads it. -/
theorem severed_fork_unreadable : ∃ store record,
    (sessionStore fun _ => true).Reaches store ∧ store.records.get? "fork" = some record ∧
      record.head = some 1 ∧
      ∀ limit turns, 1 ≤ limit →
        store.readEntriesThrough limit "fork" (turns + 1) 0 1 =
          some (.error (.store (.sessionNotFound "source"))) := by
  obtain ⟨⟨steps, store⟩, htrace, hread⟩ := Option.bind_eq_some_iff.mp forkReadOut_severed
  obtain ⟨record, hrecord, hread⟩ := Option.map_eq_some_iff.mp hread
  obtain ⟨-, hread⟩ := Prod.mk.inj hread
  obtain ⟨-, hread⟩ := Prod.mk.inj hread
  obtain ⟨hhead, hlog⟩ := Prod.mk.inj hread
  have hrun : (sessionStore fun _ => true).Run ([] ++ steps) store := (Machine.Run.init rfl).trace htrace
  have herror : store.effectiveEntries "fork" = .error (.sessionNotFound "source") := by
    cases heffective : store.effectiveEntries "fork" with
    | error error =>
      rw [heffective] at hlog
      exact congrArg _ (Except.error.inj hlog)
    | ok log =>
      rw [heffective] at hlog
      cases hlog
  refine ⟨store, record, ⟨_, hrun⟩, hrecord, hhead, fun limit turns hlimit => ?_⟩
  have hne : limit ≠ 0 := by omega
  have hafter : store.readAfter ⟨"fork", some 0, limit⟩ = .error (.sessionNotFound "source") := by
    unfold readAfter
    rw [require_pos hne, ok_bind, herror, error_bind]
  have hrange : store.readRange ⟨"fork", 0, 1, limit⟩ = .error (.sessionNotFound "source") := by
    unfold readRange
    rw [require_pos hne, ok_bind, hafter, error_bind]
  rw [readEntriesThrough, if_pos Nat.zero_lt_one, hrange]

end Store

end Lightspeed.Storage
