import Mathlib.Data.List.Basic
import Lightspeed.Subagents.Execution

/-!
# The journal of an execution

What a journal says of a delegation that is supervised well, and the two forms that it takes on the way:
up to the end of the wait, or to a preparation that yields no child, it only opens; behind that end stand
what was asked for to close the delegation, in order, and the terminals that were accepted too late.
-/

namespace Lightspeed.Subagents

open Lightspeed.Harness (PromiseId PromiseResolution)

/-! ## What a journal says -/

namespace JournalEntry

/-- What comes up before the delegation closes. -/
def isOpening : JournalEntry → Bool
  | .accepted _ | .prepared _ (.ok (.prepared _ _ _)) | .waits _ _ | .rolledOver => true
  | _ => false

/-- What is asked for to close the delegation. -/
def isClosing : JournalEntry → Bool
  | .resolve _ _ | .emitted _ _ _ | .close _ => true
  | _ => false

def isAccepted : JournalEntry → Bool
  | .accepted _ => true
  | _ => false

def isEmitted : JournalEntry → Bool
  | .emitted _ _ _ => true
  | _ => false

end JournalEntry

/-- The session that is closed after a preparation: the child, or the one that the preparation was going
to open. A rejected delegation has none. -/
def closedSession (sha256Hex : String → String) (start : WorkflowToolStartArgs) :
    Except String SubagentPrepareActivityResult → Option String
  | .error _ => some (subagentChildSessionId sha256Hex start.executionId)
  | .ok (.prepared child _ _) => some child.sessionId
  | .ok (.rejected _) => none

/-- What the journal of a delegation says at any rest. -/
structure JournalKept (start : WorkflowToolStartArgs) (journal : List JournalEntry) : Prop where
  /-- At most one resolution is emitted. -/
  once : journal.countP (·.isEmitted) ≤ 1
  /-- It goes to the holder, for the reply promise. -/
  told : ∀ holder promiseId resolution, .emitted holder promiseId resolution ∈ journal →
    holder = start.holderWorkflowId ∧ start.replyPromiseId = some promiseId
  /-- A terminal that is accepted before the wait is over is the one that it ends with. -/
  terminal : ∀ before outcome after, journal = before ++ .waited outcome :: after →
    ∀ terminal, .accepted terminal ∈ before → outcome = .terminal terminal
  /-- That terminal, and no other, is the one that is to be resolved. -/
  resolved : ∀ terminal, .waited (.terminal terminal) ∈ journal ↔
    ∃ child, .resolve child terminal ∈ journal
  /-- Every run waits for the child that was prepared, up to one instant. -/
  deadline : ∀ child atMs, .waits child atMs ∈ journal → ∃ nowMs runTimeoutMs wait,
    .prepared nowMs (.ok (.prepared child runTimeoutMs wait)) ∈ journal ∧
      atMs = deadlineAtMs nowMs runTimeoutMs
  same : ∀ child atMs child' atMs', .waits child atMs ∈ journal → .waits child' atMs' ∈ journal →
    child' = child ∧ atMs' = atMs

/-- The child was closed, unless the preparation was rejected. -/
def Closed (sha256Hex : String → String) (start : WorkflowToolStartArgs)
    (journal : List JournalEntry) : Prop :=
  ∃ nowMs result, .prepared nowMs result ∈ journal ∧
    ∀ sessionId ∈ closedSession sha256Hex start result, .close sessionId ∈ journal

/-! ## Opening -/

/-- A journal that only opens: the child and its deadline once they are known, and the terminal that is
pending. -/
structure Opening (begun : Option (SubagentChildRef × Option Nat)) (pending : Option SubagentTerminal)
    (journal : List JournalEntry) : Prop where
  plain : ∀ entry ∈ journal, entry.isOpening = true
  accepted : ∀ terminal, .accepted terminal ∈ journal → pending = some terminal
  waits : ∀ child atMs, .waits child atMs ∈ journal → begun = some (child, atMs)
  prepared : ∀ child atMs, begun = some (child, atMs) → ∃ nowMs runTimeoutMs wait,
    .prepared nowMs (.ok (.prepared child runTimeoutMs wait)) ∈ journal ∧
      atMs = deadlineAtMs nowMs runTimeoutMs

variable {sha256Hex : String → String} {start : WorkflowToolStartArgs}
  {begun : Option (SubagentChildRef × Option Nat)} {pending : Option SubagentTerminal}
  {journal tail : List JournalEntry} {head : JournalEntry} {entry : JournalEntry}
  {child : SubagentChildRef} {atMs : Option Nat}

theorem Opening.nil : Opening none none [] where
  plain _ hmem := nomatch hmem
  accepted _ hmem := nomatch hmem
  waits _ _ hmem := nomatch hmem
  prepared _ _ h := nomatch h

theorem Opening.not_closing (h : Opening begun pending journal) (hentry : entry.isOpening = false) :
    entry ∉ journal := by
  intro hmem
  rw [h.plain entry hmem] at hentry
  cases hentry

theorem Opening.countP_isEmitted (h : Opening begun pending journal) :
    journal.countP (·.isEmitted) = 0 := by
  refine List.countP_eq_zero.mpr fun entry hmem hemitted => ?_
  cases entry with
  | emitted holder promiseId resolution => exact h.not_closing rfl hmem
  | _ => cases hemitted

/-- One more entry that opens. -/
theorem Opening.append {begun' : Option (SubagentChildRef × Option Nat)}
    {pending' : Option SubagentTerminal} (h : Opening begun pending journal)
    (hentry : entry.isOpening = true)
    (haccepted : ∀ terminal, pending = some terminal ∨ entry = .accepted terminal →
      pending' = some terminal)
    (hwaits : ∀ child atMs, begun = some (child, atMs) ∨ entry = .waits child atMs →
      begun' = some (child, atMs))
    (hprepared : ∀ child atMs, begun' = some (child, atMs) → begun = some (child, atMs) ∨
      ∃ nowMs runTimeoutMs wait, entry = .prepared nowMs (.ok (.prepared child runTimeoutMs wait)) ∧
        atMs = deadlineAtMs nowMs runTimeoutMs) :
    Opening begun' pending' (journal ++ [entry]) where
  plain other hmem := by
    rcases List.mem_append.mp hmem with hmem | hmem
    · exact h.plain other hmem
    · rw [List.mem_singleton.mp hmem]
      exact hentry
  accepted terminal hmem := by
    rcases List.mem_append.mp hmem with hmem | hmem
    · exact haccepted terminal (.inl (h.accepted terminal hmem))
    · exact haccepted terminal (.inr (List.mem_singleton.mp hmem).symm)
  waits child atMs hmem := by
    rcases List.mem_append.mp hmem with hmem | hmem
    · exact hwaits child atMs (.inl (h.waits child atMs hmem))
    · exact hwaits child atMs (.inr (List.mem_singleton.mp hmem).symm)
  prepared child atMs hbegun := by
    rcases hprepared child atMs hbegun with hbefore | ⟨nowMs, runTimeoutMs, wait, hsame, hat⟩
    · obtain ⟨nowMs, runTimeoutMs, wait, hmem, hat⟩ := h.prepared child atMs hbefore
      exact ⟨nowMs, runTimeoutMs, wait, List.mem_append_left _ hmem, hat⟩
    · exact ⟨nowMs, runTimeoutMs, wait, List.mem_append_right _ (List.mem_singleton.mpr hsame.symm),
        hat⟩

/-- Nothing was accepted while none is pending, so what is accepted then becomes pending. -/
theorem Opening.accept (h : Opening begun none journal) (terminal : SubagentTerminal) :
    Opening begun (some terminal) (journal ++ [.accepted terminal]) :=
  h.append rfl (by simp) (by simp) fun _ _ => .inl

theorem Opening.rollOver (h : Opening begun pending journal) :
    Opening begun pending (journal ++ [.rolledOver]) :=
  h.append rfl (by simp) (by simp) fun _ _ => .inl

theorem Opening.wait (h : Opening (some (child, atMs)) pending journal) :
    Opening (some (child, atMs)) pending (journal ++ [.waits child atMs]) :=
  h.append rfl (by simp) (by simp) fun _ _ => .inl

/-- The child is known from its preparation on. -/
theorem Opening.prepare (h : Opening none pending journal) (nowMs : Nat) (child : SubagentChildRef)
    (runTimeoutMs : Option Nat) (wait : SubagentWaitPolicy) :
    Opening (some (child, deadlineAtMs nowMs runTimeoutMs)) pending
      (journal ++ [.prepared nowMs (.ok (.prepared child runTimeoutMs wait))]) := by
  refine h.append rfl (by simp) (by simp) fun child' atMs hbegun => .inr ?_
  cases hbegun
  exact ⟨nowMs, runTimeoutMs, wait, rfl, rfl⟩

theorem Opening.journalKept (h : Opening begun pending journal) : JournalKept start journal where
  once := by rw [h.countP_isEmitted]; omega
  told _ _ _ hmem := absurd hmem (h.not_closing rfl)
  terminal before outcome after hsplit := by
    have hmem : .waited outcome ∈ journal := by rw [hsplit]; simp
    exact absurd hmem (h.not_closing rfl)
  resolved terminal := by
    constructor
    · exact fun hmem => absurd hmem (h.not_closing rfl)
    · rintro ⟨child, hmem⟩
      exact absurd hmem (h.not_closing rfl)
  deadline child atMs hmem := h.prepared child atMs (h.waits child atMs hmem)
  same child atMs child' atMs' hmem hmem' := by
    have hpair := (h.waits child' atMs' hmem').symm.trans (h.waits child atMs hmem)
    simpa using hpair

/-! ## Closing -/

/-- A journal that opened, an end of the wait or of the preparation, and what was asked for since. -/
def Closing (begun : Option (SubagentChildRef × Option Nat)) (pending : Option SubagentTerminal)
    (head : JournalEntry) (tail journal : List JournalEntry) : Prop :=
  ∃ opening rest, journal = opening ++ head :: rest ∧ Opening begun pending opening ∧
    rest.filter (fun entry => !entry.isAccepted) = tail

/-- What an opening ends with: an outcome that the pending terminal decides, or a preparation that
yields no child. -/
inductive EndsOpening : Option SubagentTerminal → JournalEntry → Prop
  | waited {pending : Option SubagentTerminal} (outcome : WaitOutcome)
      (h : ∀ terminal, pending = some terminal → outcome = .terminal terminal) :
      EndsOpening pending (.waited outcome)
  | failed {pending : Option SubagentTerminal} (nowMs : Nat) (error : String) :
      EndsOpening pending (.prepared nowMs (.error error))
  | rejected {pending : Option SubagentTerminal} (nowMs : Nat) (errorRef : Harness.BlobRef) :
      EndsOpening pending (.prepared nowMs (.ok (.rejected errorRef)))

/-- What is asked for after an end. -/
structure TailKept (start : WorkflowToolStartArgs) (head : JournalEntry) (tail : List JournalEntry) :
    Prop where
  plain : ∀ entry ∈ tail, entry.isClosing = true
  once : tail.countP (·.isEmitted) ≤ 1
  told : ∀ holder promiseId resolution, .emitted holder promiseId resolution ∈ tail →
    holder = start.holderWorkflowId ∧ start.replyPromiseId = some promiseId
  resolved : ∀ terminal, head = .waited (.terminal terminal) ↔ ∃ child, .resolve child terminal ∈ tail

theorem Closing.of_opening (h : Opening begun pending journal) (head : JournalEntry) :
    Closing begun pending head [] (journal ++ [head]) := ⟨journal, [], rfl, h, rfl⟩

/-- Asking for one more thing. -/
theorem Closing.ask (h : Closing begun pending head tail journal)
    (hentry : entry.isAccepted = false) :
    Closing begun pending head (tail ++ [entry]) (journal ++ [entry]) := by
  obtain ⟨opening, rest, rfl, hopening, rfl⟩ := h
  refine ⟨opening, rest ++ [entry], by simp, hopening, ?_⟩
  rw [List.filter_append, List.filter_cons_of_pos (by rw [hentry]; rfl), List.filter_nil]

/-- A terminal that is accepted too late. -/
theorem Closing.accept (h : Closing begun pending head tail journal) (terminal : SubagentTerminal) :
    Closing begun pending head tail (journal ++ [.accepted terminal]) := by
  obtain ⟨opening, rest, rfl, hopening, rfl⟩ := h
  refine ⟨opening, rest ++ [.accepted terminal], by simp, hopening, ?_⟩
  rw [List.filter_append, List.filter_cons_of_neg (by simp [JournalEntry.isAccepted]),
    List.filter_nil, List.append_nil]

/-- Behind the end stands what was asked for, or a terminal. -/
theorem mem_rest {rest : List JournalEntry}
    (hrest : rest.filter (fun entry => !entry.isAccepted) = tail)
    (hentry : entry.isAccepted = false) : entry ∈ rest ↔ entry ∈ tail := by
  rw [← hrest, List.mem_filter, hentry]
  simp

/-- What is asked for to close stands in the journal of a closing delegation where it is asked for. -/
theorem Closing.mem_iff (h : Closing begun pending head tail journal)
    (hends : EndsOpening pending head) (hentry : entry.isClosing = true) :
    entry ∈ journal ↔ entry ∈ tail := by
  obtain ⟨opening, rest, rfl, hopening, hrest⟩ := h
  have hnotOpening : entry.isOpening = false ∧ entry.isAccepted = false := by
    cases entry with
    | resolve child terminal | emitted holder promiseId resolution | close sessionId => exact ⟨rfl, rfl⟩
    | _ => cases hentry
  have hhead : entry ≠ head := by
    rintro rfl
    cases hends <;> cases hentry
  rw [List.mem_append, List.mem_cons, mem_rest hrest hnotOpening.2]
  constructor
  · rintro (hmem | heq | hmem)
    · exact absurd hmem (hopening.not_closing hnotOpening.1)
    · exact absurd heq hhead
    · exact hmem
  · exact fun hmem => .inr (.inr hmem)

theorem Closing.head_mem (h : Closing begun pending head tail journal) : head ∈ journal := by
  obtain ⟨opening, rest, rfl, -⟩ := h
  simp

theorem Closing.countP_isEmitted (h : Closing begun pending head tail journal)
    (hends : EndsOpening pending head) :
    journal.countP (·.isEmitted) = tail.countP (·.isEmitted) := by
  obtain ⟨opening, rest, rfl, hopening, rfl⟩ := h
  have hhead : head.isEmitted = false := by cases hends <;> rfl
  have hrest : rest.countP (·.isEmitted) =
      (rest.filter fun entry => !entry.isAccepted).countP (·.isEmitted) := by
    rw [List.countP_filter]
    refine List.countP_congr fun entry _ => ?_
    cases entry <;> simp [JournalEntry.isEmitted, JournalEntry.isAccepted]
  calc (opening ++ head :: rest).countP (·.isEmitted)
      = opening.countP (·.isEmitted) + (head :: rest).countP (·.isEmitted) := List.countP_append
    _ = 0 + rest.countP (·.isEmitted) := by
      rw [hopening.countP_isEmitted, List.countP_cons_of_neg (by simp [hhead])]
    _ = (rest.filter fun entry => !entry.isAccepted).countP (·.isEmitted) := by
      rw [Nat.zero_add, hrest]

/-- The wait ended where the delegation began to close, and nowhere else. -/
theorem Closing.waited (h : Closing begun pending head tail journal) (hends : EndsOpening pending head)
    (htail : TailKept start head tail) {before after : List JournalEntry} {outcome : WaitOutcome}
    (hsplit : journal = before ++ .waited outcome :: after) :
    head = .waited outcome ∧ Opening begun pending before := by
  obtain ⟨opening, rest, hjournal, hopening, hrest⟩ := h
  have hnotOpening : .waited outcome ∉ opening := hopening.not_closing rfl
  have hnotRest : .waited outcome ∉ rest := by
    rw [mem_rest hrest rfl]
    exact fun hmem => nomatch htail.plain _ hmem
  obtain ⟨rfl, rfl, -⟩ :=
    (List.append_cons_inj_of_notMem hnotOpening hnotRest).mp (hjournal.symm.trans hsplit)
  exact ⟨rfl, hopening⟩

theorem Closing.waited_mem_iff (h : Closing begun pending head tail journal)
    (hends : EndsOpening pending head) (htail : TailKept start head tail) {outcome : WaitOutcome} :
    .waited outcome ∈ journal ↔ head = .waited outcome := by
  constructor
  · intro hmem
    obtain ⟨before, after, hsplit⟩ := List.append_of_mem hmem
    exact (h.waited hends htail hsplit).1
  · exact fun hhead => hhead ▸ h.head_mem

/-- A run waits where the delegation opened, and nowhere else. -/
theorem Closing.waits (h : Closing begun pending head tail journal)
    (hends : EndsOpening pending head) (htail : TailKept start head tail)
    (hmem : .waits child atMs ∈ journal) : begun = some (child, atMs) := by
  obtain ⟨opening, rest, rfl, hopening, hrest⟩ := h
  rcases List.mem_append.mp hmem with hmem | hmem
  · exact hopening.waits child atMs hmem
  · rcases List.mem_cons.mp hmem with rfl | hmem
    · cases hends
    · exact nomatch htail.plain _ ((mem_rest hrest rfl).mp hmem)

theorem Closing.prepared (h : Closing begun pending head tail journal)
    (hbegun : begun = some (child, atMs)) : ∃ nowMs runTimeoutMs wait,
      .prepared nowMs (.ok (.prepared child runTimeoutMs wait)) ∈ journal ∧
        atMs = deadlineAtMs nowMs runTimeoutMs := by
  obtain ⟨opening, rest, rfl, hopening, -⟩ := h
  obtain ⟨nowMs, runTimeoutMs, wait, hmem, hat⟩ := hopening.prepared child atMs hbegun
  exact ⟨nowMs, runTimeoutMs, wait, List.mem_append_left _ hmem, hat⟩

/-- What the journal of a delegation says while it closes. -/
theorem Closing.journalKept (h : Closing begun pending head tail journal)
    (hends : EndsOpening pending head) (htail : TailKept start head tail) :
    JournalKept start journal where
  once := (h.countP_isEmitted hends).trans_le htail.once
  told holder promiseId resolution hmem :=
    htail.told holder promiseId resolution ((h.mem_iff hends rfl).mp hmem)
  terminal before outcome after hsplit terminal hmem := by
    obtain ⟨rfl, hbefore⟩ := h.waited hends htail hsplit
    cases hends with
    | waited outcome hpending => exact hpending terminal (hbefore.accepted terminal hmem)
  resolved terminal := by
    rw [h.waited_mem_iff hends htail, htail.resolved]
    exact exists_congr fun child => (h.mem_iff hends rfl).symm
  deadline child atMs hmem := h.prepared (h.waits hends htail hmem)
  same child atMs child' atMs' hmem hmem' := by
    have hpair := (h.waits hends htail hmem').symm.trans (h.waits hends htail hmem)
    simpa using hpair

/-! ## What is asked for -/

theorem TailKept.nil (start : WorkflowToolStartArgs) (head : JournalEntry)
    (h : ∀ terminal, head ≠ .waited (.terminal terminal)) : TailKept start head [] where
  plain _ hmem := nomatch hmem
  once := Nat.zero_le _
  told _ _ _ hmem := nomatch hmem
  resolved terminal := ⟨fun hhead => absurd hhead (h terminal), fun ⟨_, hmem⟩ => nomatch hmem⟩

theorem TailKept.resolve (start : WorkflowToolStartArgs) (child : SubagentChildRef)
    (terminal : SubagentTerminal) :
    TailKept start (.waited (.terminal terminal)) [.resolve child terminal] where
  plain entry hmem := by
    rw [List.mem_singleton.mp hmem]
    rfl
  once := Nat.zero_le _
  told _ _ _ hmem := nomatch List.mem_singleton.mp hmem
  resolved other := by
    simp only [JournalEntry.waited.injEq, WaitOutcome.terminal.injEq, List.mem_singleton,
      JournalEntry.resolve.injEq, exists_eq_left]
    exact eq_comm

/-- One more request that resolves no terminal. -/
theorem TailKept.ask (h : TailKept start head tail) (hentry : entry.isClosing = true)
    (hresolve : ∀ child terminal, entry ≠ .resolve child terminal)
    (honce : (tail ++ [entry]).countP (·.isEmitted) ≤ 1)
    (htold : ∀ holder promiseId resolution, entry = .emitted holder promiseId resolution →
      holder = start.holderWorkflowId ∧ start.replyPromiseId = some promiseId) :
    TailKept start head (tail ++ [entry]) where
  plain other hmem := by
    rcases List.mem_append.mp hmem with hmem | hmem
    · exact h.plain other hmem
    · rw [List.mem_singleton.mp hmem]
      exact hentry
  once := honce
  told holder promiseId resolution hmem := by
    rcases List.mem_append.mp hmem with hmem | hmem
    · exact h.told holder promiseId resolution hmem
    · exact htold holder promiseId resolution (List.mem_singleton.mp hmem).symm
  resolved terminal := by
    rw [h.resolved]
    refine exists_congr fun child => ?_
    rw [List.mem_append, List.mem_singleton, or_iff_left (hresolve child terminal).symm]

theorem TailKept.close (h : TailKept start head tail) (sessionId : String) :
    TailKept start head (tail ++ [.close sessionId]) := by
  refine h.ask rfl nofun ?_ nofun
  rw [List.countP_append]
  exact h.once

/-- The one resolution that is emitted. -/
theorem TailKept.emit {promiseId : PromiseId} (h : TailKept start head tail)
    (hpromise : start.replyPromiseId = some promiseId) (hnone : tail.countP (·.isEmitted) = 0)
    (resolution : PromiseResolution) :
    TailKept start head (tail ++ [.emitted start.holderWorkflowId promiseId resolution]) := by
  refine h.ask rfl nofun ?_ ?_
  · rw [List.countP_append, hnone]
    exact Nat.le_refl _
  · rintro holder promiseId resolution ⟨⟩
    exact ⟨rfl, hpromise⟩

/-! ## The end -/

/-- What the journal of an execution that is over says. -/
structure Over (sha256Hex : String → String) (start : WorkflowToolStartArgs)
    (journal : List JournalEntry) : Prop where
  kept : JournalKept start journal
  closed : Closed sha256Hex start journal

/-- A wait that is over closes the child. -/
theorem Closing.over_of_waited (h : Closing (some (child, atMs)) pending head tail journal)
    (hends : EndsOpening pending head) (htail : TailKept start head tail)
    (hclose : .close child.sessionId ∈ tail) : Over sha256Hex start journal := by
  obtain ⟨nowMs, runTimeoutMs, wait, hprepared, -⟩ := h.prepared rfl
  refine ⟨h.journalKept hends htail, nowMs, _, hprepared, fun sessionId hsession => ?_⟩
  obtain rfl : child.sessionId = sessionId := Option.some.inj hsession
  exact (h.mem_iff hends rfl).mpr hclose

/-- A preparation that yields no child closes what it may have opened. -/
theorem Closing.over_of_prepared {nowMs : Nat} {result : Except String SubagentPrepareActivityResult}
    (h : Closing begun pending (.prepared nowMs result) tail journal)
    (hends : EndsOpening pending (.prepared nowMs result))
    (htail : TailKept start (.prepared nowMs result) tail)
    (hclose : ∀ sessionId ∈ closedSession sha256Hex start result, .close sessionId ∈ tail) :
    Over sha256Hex start journal :=
  ⟨h.journalKept hends htail, nowMs, result, h.head_mem, fun sessionId hsession =>
    (h.mem_iff hends rfl).mpr (hclose sessionId hsession)⟩

end Lightspeed.Subagents
