import Mathlib.Algebra.GroupWithZero.Nat
import Lightspeed.Harness.Steps
import Lightspeed.Storage.Pages

/-!
# Checkpoints of a log

`checkpoint.rs`: a session's state is the reduction of its log, and a checkpoint is the bytes of the state
at an earlier head, in a blob that a pointer of the session names. `load_reduction` takes the checkpoint's
state and reduces the rest of the log from there, or, whatever is wrong with the checkpoint, replays the
whole log. The state is the same, since a reduction may be cut at any entry.

The JSON of a state and the digest of bytes are parameters. That decoding undoes encoding, and that no other
bytes have the digest of a state's encoding, are what the results take of them.
-/

namespace Lightspeed.Storage

open Lib Harness

/-! ## Replays -/

/-- `ReducedSession`. -/
structure ReducedSession where
  coreState : CoreAgentState := {}
  replayedEventCount : Nat := 0

/-- `reduce_session_entries_from`. -/
def reduceSessionEntriesFrom (reduced : ReducedSession) (entries : List CoreAgentEntry) :
    Except ReplayError ReducedSession :=
  match entries.foldlM applyEvent reduced.coreState with
  | .error error => .error (.reducer error)
  | .ok coreState => .ok ⟨coreState, reduced.replayedEventCount + entries.length⟩

/-- `reduce_session_entries`. -/
def reduceSessionEntries (entries : List CoreAgentEntry) : Except ReplayError ReducedSession :=
  reduceSessionEntriesFrom {} entries

/-- `validate_reduced_head`. -/
def validateReducedHead (reduced : ReducedSession) (head : EventSeq) : Except ReplayError Unit :=
  require (reduced.coreState.reducedTo = some head) (.text "reduced state does not reach fenced head")

/-! ## Bytes -/

/-- `SESSION_CHECKPOINT_FORMAT_VERSION`. -/
def sessionCheckpointFormatVersion : Nat := 2

/-- `DEFAULT_BOOTSTRAP_PAYLOAD_BUDGET_BYTES`. -/
def defaultBootstrapPayloadBudgetBytes : Nat := 1500000

/-- What a checkpoint's bytes are made with: the JSON of a state and of an entry, and `BlobRef::from_bytes`. -/
structure CheckpointCodec where
  encode : CoreAgentState → List UInt8
  decode : List UInt8 → Option CoreAgentState
  entryBytes : CoreAgentEntry → Nat
  fromBytes : List UInt8 → BlobRef

/-- Decoding undoes the encoding of every state that a log goes through, and no other bytes have the
reference of such an encoding. -/
structure CheckpointCodec.Faithful (codec : CheckpointCodec) (log : List CoreAgentEntry) : Prop where
  decode_encode : ∀ n state, (log.take n).foldlM applyEvent {} = .ok state →
    codec.decode (codec.encode state) = some state
  collisionFree : ∀ n state, (log.take n).foldlM applyEvent {} = .ok state →
    ∀ bytes, codec.fromBytes bytes = codec.fromBytes (codec.encode state) → bytes = codec.encode state

/-- The bytes that a blob store keeps under each reference, right or damaged. -/
abbrev Blobs := BlobRef → Option (List UInt8)

/-- `read_bytes`, which checks what it reads against the reference. -/
def Blobs.readBytes (codec : CheckpointCodec) (blobs : Blobs) (blobRef : BlobRef) :
    Except ReplayError (List UInt8) := do
  let bytes ← orError (blobs blobRef) (.text "blob not found")
  require (codec.fromBytes bytes = blobRef) (.text "blob hash mismatch")
  .ok bytes

/-! ## Loading -/

/-- `LoadedReduction`. -/
structure LoadedReduction where
  reduced : ReducedSession
  freshSession : Bool
  fullReplay : Bool
  tailEventCount : Nat
  tailEncodedBytes : Nat

/-- `encoded_entry_bytes`. -/
def encodedEntryBytes (codec : CheckpointCodec) (entries : List CoreAgentEntry) : Nat :=
  (entries.map codec.entryBytes).sum

/-- The state of a checkpoint that passes the checks of `load_checkpoint_tail`. -/
def checkpointState (codec : CheckpointCodec) (blobs : Blobs) (record : SessionRecord) (headSeq : EventSeq)
    (checkpoint : SessionCheckpoint) : Except ReplayError CoreAgentState := do
  let formatVersion := checkpoint.formatVersion
  let throughSeq := checkpoint.throughSeq
  require (formatVersion = sessionCheckpointFormatVersion)
    (.text s!"unsupported checkpoint format {formatVersion}")
  require (checkpoint.lineageSourceSessionId = record.sourceSessionId ∧
    checkpoint.lineageSourceSeq = record.sourceSeq) (.text "checkpoint lineage mismatch")
  require (throughSeq ≤ headSeq)
    (.text s!"checkpoint sequence {throughSeq} exceeds fenced head {headSeq}")
  let bytes ← blobs.readBytes codec checkpoint.stateRef
  require (bytes.length = checkpoint.byteLen) (.text "checkpoint byte length mismatch")
  let state ← orError (codec.decode bytes) (.text "deserialize")
  require (state.reducedTo = some throughSeq)
    (.text "checkpoint reduced position does not match pointer")
  .ok state

/-- A reduction of what was read, which has to reach the head. -/
def reduceTail (codec : CheckpointCodec) (reduced : ReducedSession) (fullReplay : Bool) (headSeq : EventSeq)
    (entries : Except ReplayError (List CoreAgentEntry)) : Except ReplayError LoadedReduction := do
  let entries ← entries
  let reduced ← reduceSessionEntriesFrom reduced entries
  validateReducedHead reduced headSeq
  .ok ⟨reduced, false, fullReplay, entries.length, encodedEntryBytes codec entries⟩

namespace Store

/-- `load_checkpoint_tail`, as far as a number of pages goes. -/
def loadCheckpointTail (store : Store) (codec : CheckpointCodec) (blobs : Blobs) (turns : Nat)
    (record : SessionRecord) (headSeq : EventSeq) (checkpoint : SessionCheckpoint) :
    Option (Except ReplayError LoadedReduction) :=
  match checkpointState codec blobs record headSeq checkpoint with
  | .error error => some (.error error)
  | .ok state =>
    (store.readEntriesThrough checkpointReadPage record.sessionId turns checkpoint.throughSeq headSeq).map
      (reduceTail codec ⟨state, 0⟩ false headSeq)

/-- The replay of a whole log. -/
def replay (store : Store) (codec : CheckpointCodec) (turns : Nat) (record : SessionRecord)
    (headSeq : EventSeq) : Option (Except ReplayError LoadedReduction) :=
  (store.readEntriesThrough checkpointReadPage record.sessionId turns 0 headSeq).map
    (reduceTail codec {} true headSeq)

/-- `load_reduction`. A pointer that cannot be read, and a checkpoint that is rejected, are no checkpoint. -/
def loadReduction (store : Store) (codec : CheckpointCodec) (blobs : Blobs) (turns : Nat)
    (record : SessionRecord) : Option (Except ReplayError LoadedReduction) :=
  match record.head with
  | none => some (.ok ⟨{}, true, false, 0, 0⟩)
  | some headSeq =>
    match store.loadCheckpoint record.sessionId with
    | .ok (some checkpoint) =>
      match store.loadCheckpointTail codec blobs turns record headSeq checkpoint with
      | none => none
      | some (.ok loaded) => some (.ok loaded)
      | some (.error _) => store.replay codec turns record headSeq
    | _ => store.replay codec turns record headSeq

/-- `write_checkpoint`, with the blobs and whether the pointer moved. -/
def writeCheckpoint (store : Store) (codec : CheckpointCodec) (blobs : Blobs) (record : SessionRecord)
    (reduced : ReducedSession) (createdAtMs : Nat) : Except ReplayError (Store × Blobs × Bool) :=
  match reduced.coreState.reducedTo with
  | none => .ok (store, blobs, false)
  | some throughSeq => do
    let bytes := codec.encode reduced.coreState
    require (bytes.length ≤ defaultBootstrapPayloadBudgetBytes)
      (.text "checkpoint exceeds bootstrap payload budget")
    let stateRef := codec.fromBytes bytes
    let checkpoint : SessionCheckpoint :=
      { sessionId := record.sessionId
        throughSeq
        formatVersion := sessionCheckpointFormatVersion
        stateRef
        lineageSourceSessionId := record.sourceSessionId
        lineageSourceSeq := record.sourceSeq
        byteLen := bytes.length
        createdAtMs }
    let blobs := Function.update blobs stateRef (some bytes)
    match store.advanceCheckpoint checkpoint with
    | .error error => .error (.store error)
    | .ok (store, advanced) => .ok (store, blobs, advanced)

end Store

/-! ## What a pointer stands for -/

/-- A pointer that was written at a head of a log: it names the encoding of the log's state there. -/
def SessionCheckpoint.WrittenAt (checkpoint : SessionCheckpoint) (codec : CheckpointCodec)
    (log : List CoreAgentEntry) (head : Nat) : Prop :=
  ∃ state, (log.take head).foldlM applyEvent {} = .ok state ∧
    state.reducedTo = some checkpoint.throughSeq ∧
    checkpoint.stateRef = codec.fromBytes (codec.encode state)

/-- What a stored pointer may be: written at a head of the log, of another format, of another lineage,
beyond the head, or with bytes that are not there, are not those that were written, or are no state. -/
inductive SessionCheckpoint.Stored (checkpoint : SessionCheckpoint) (codec : CheckpointCodec)
    (blobs : Blobs) (record : SessionRecord) (log : List CoreAgentEntry) : Prop
  | written (head : Nat) (h : checkpoint.WrittenAt codec log head)
  | format (h : checkpoint.formatVersion ≠ sessionCheckpointFormatVersion)
  | lineage (h : checkpoint.lineageSourceSessionId ≠ record.sourceSessionId ∨
      checkpoint.lineageSourceSeq ≠ record.sourceSeq)
  | stale (h : record.head.getD 0 < checkpoint.throughSeq)
  | missing (h : blobs checkpoint.stateRef = none)
  | damaged (bytes : List UInt8) (h : blobs checkpoint.stateRef = some bytes)
      (hdamaged : codec.fromBytes bytes ≠ checkpoint.stateRef ∨ codec.decode bytes = none)

variable {store store' : Store} {codec : CheckpointCodec} {blobs : Blobs} {record : SessionRecord}
  {log entries : List CoreAgentEntry} {checkpoint : SessionCheckpoint} {state : CoreAgentState}
  {headSeq : EventSeq} {turns : Nat}

/-! ## Reductions that are cut -/

/-- The position of a reduced state is the last entry's, and the log's length when the state is a log's. -/
theorem reducedTo_of_foldlM {n : Nat} (hnumbered : Numbered CoreAgentEntry.seq (n + 1) entries)
    {s t : CoreAgentState} (h : entries.foldlM applyEvent s = .ok t)
    (hs : s.reducedTo = positionFromNonzeroSeq n) :
    t.reducedTo = positionFromNonzeroSeq (n + entries.length) := by
  induction entries generalizing s n with
  | nil =>
    rw [List.foldlM_nil, pure_eq_ok] at h
    exact h ▸ hs
  | cons entry entries ih =>
    obtain ⟨m, hm, hrest⟩ := foldlM_cons_eq_ok.mp h
    obtain ⟨hseq, hentries⟩ := Numbered.cons_iff.mp hnumbered
    obtain ⟨-, _, -, rfl⟩ := applyEvent_eq_ok.mp hm
    have hnext : some entry.seq = positionFromNonzeroSeq (n + 1) := by
      rw [hseq]
      rfl
    rw [ih hentries hrest hnext, List.length_cons, Nat.add_assoc, Nat.add_comm 1]

/-- A log that is reduced is reduced to its last position. -/
theorem reducedTo_of_log {n : Nat} (hnumbered : Numbered CoreAgentEntry.seq 1 log)
    (h : (log.take n).foldlM applyEvent {} = .ok state) (hn : n ≤ log.length) :
    state.reducedTo = positionFromNonzeroSeq n := by
  have hreduced := reducedTo_of_foldlM (hnumbered.take n) h rfl
  rwa [Nat.zero_add, List.length_take_of_le hn] at hreduced

/-- A reduction that reaches the head is loaded. -/
theorem reduceTail_eq_ok (reduced : ReducedSession) {fullReplay : Bool}
    (h : entries.foldlM applyEvent reduced.coreState = .ok state) (hhead : state.reducedTo = some headSeq) :
    reduceTail codec reduced fullReplay headSeq (.ok entries) =
      .ok ⟨⟨state, reduced.replayedEventCount + entries.length⟩, false, fullReplay, entries.length,
        encodedEntryBytes codec entries⟩ := by
  unfold reduceTail reduceSessionEntriesFrom validateReducedHead
  rw [ok_bind, h]
  dsimp only
  rw [ok_bind, require_pos hhead, ok_bind]

theorem reduceTail_eq_error (reduced : ReducedSession) {fullReplay : Bool} {error : DomainError}
    (h : entries.foldlM applyEvent reduced.coreState = .error error) :
    reduceTail codec reduced fullReplay headSeq (.ok entries) = .error (.reducer error) := by
  unfold reduceTail reduceSessionEntriesFrom
  rw [ok_bind, h]
  rfl

/-! ## Pointers that are taken -/

/-- A checkpoint that passes every check was written at the head that its pointer says. -/
theorem checkpointState_eq_ok {n : Nat} (hcodec : codec.Faithful log)
    (hnumbered : Numbered CoreAgentEntry.seq 1 log) (hhead : record.head = positionFromNonzeroSeq n)
    (hstored : checkpoint.Stored codec blobs record log)
    (h : checkpointState codec blobs record n checkpoint = .ok state) :
    checkpoint.throughSeq ≤ n ∧ checkpoint.throughSeq ≤ log.length ∧
      (log.take checkpoint.throughSeq).foldlM applyEvent {} = .ok state := by
  unfold checkpointState at h
  obtain ⟨_, hformat, h⟩ := bind_eq_ok.mp h
  obtain ⟨_, hlineage, h⟩ := bind_eq_ok.mp h
  obtain ⟨_, hthrough, h⟩ := bind_eq_ok.mp h
  obtain ⟨bytes, hbytes, h⟩ := bind_eq_ok.mp h
  obtain ⟨-, -, h⟩ := bind_eq_ok.mp h
  obtain ⟨decoded, hdecode, h⟩ := bind_eq_ok.mp h
  obtain ⟨_, -, h⟩ := bind_eq_ok.mp h
  obtain rfl := Except.ok.inj h
  unfold Blobs.readBytes at hbytes
  obtain ⟨read, hread, hbytes⟩ := bind_eq_ok.mp hbytes
  obtain ⟨_, hdigest, hbytes⟩ := bind_eq_ok.mp hbytes
  obtain rfl := Except.ok.inj hbytes
  rw [require_eq_ok] at hformat hlineage hthrough hdigest
  rw [orError_eq_ok] at hread hdecode
  cases hstored with
  | written head hwritten =>
    obtain ⟨written, hfold, hreduced, href⟩ := hwritten
    have hsame := hcodec.collisionFree head written hfold read (hdigest.trans href)
    rw [hsame, hcodec.decode_encode head written hfold] at hdecode
    obtain rfl := Option.some.inj hdecode
    -- The state was reduced from as much of the log as its position says.
    have hposition := reducedTo_of_foldlM (hnumbered.take head) hfold rfl
    rw [hreduced, Nat.zero_add] at hposition
    unfold positionFromNonzeroSeq at hposition
    split_ifs at hposition with hpos
    have hlength : checkpoint.throughSeq = (log.take head).length := Option.some.inj hposition
    have htake : log.take checkpoint.throughSeq = log.take head := by
      rw [hlength, List.length_take, ← List.take_eq_take_min]
    refine ⟨hthrough, ?_, htake ▸ hfold⟩
    rw [hlength, List.length_take]
    exact Nat.min_le_right ..
  | format h => exact absurd hformat h
  | lineage h =>
    rcases h with h | h
    · exact absurd hlineage.1 h
    · exact absurd hlineage.2 h
  | stale h =>
    rw [hhead, getD_positionFromNonzeroSeq] at h
    exact absurd hthrough (Nat.not_le_of_lt h)
  | missing h =>
    rw [hread] at h
    cases h
  | damaged found h hdamaged =>
    obtain rfl := Option.mem_unique hread h
    rcases hdamaged with hdamaged | hdamaged
    · exact absurd hdigest hdamaged
    · rw [hdecode] at hdamaged
      cases hdamaged

/-! ## Loading -/

/-- The state that a log reduces to, or the reducer's error. -/
def replayState (log : List CoreAgentEntry) : Except ReplayError CoreAgentState :=
  (reduceSessionEntries log).map ReducedSession.coreState

theorem replayState_ok (h : log.foldlM applyEvent {} = .ok state) : replayState log = .ok state := by
  unfold replayState reduceSessionEntries reduceSessionEntriesFrom
  rw [h]
  rfl

theorem replayState_error {error : DomainError} (h : log.foldlM applyEvent {} = .error error) :
    replayState log = .error (.reducer error) := by
  unfold replayState reduceSessionEntries reduceSessionEntriesFrom
  rw [h]
  rfl

namespace Store

variable {n : Nat}

/-- The replay of a whole log. -/
theorem replay_eq (hlog : store.effectiveEntries record.sessionId = .ok log)
    (hnumbered : Numbered CoreAgentEntry.seq 1 log) (hpos : 0 < n) (hn : n ≤ log.length)
    (hturns : n < turns) :
    ∃ loaded, store.replay codec turns record n = some loaded ∧
      loaded.map (fun loaded => loaded.reduced.coreState) = replayState (log.take n) := by
  have hpage : 1 ≤ checkpointReadPage := by decide
  have hread := readEntriesThrough_eq hlog hnumbered hpage hn (Nat.zero_le n) hturns
  rw [List.drop_zero, Nat.sub_zero] at hread
  refine ⟨_, by rw [replay, hread, Option.map_some], ?_⟩
  cases hfold : (log.take n).foldlM applyEvent {} with
  | error error =>
    rw [reduceTail_eq_error {} hfold, replayState_error hfold]
    rfl
  | ok state =>
    have hhead : state.reducedTo = some n := by
      rw [reducedTo_of_log hnumbered hfold hn]
      exact if_pos hpos
    rw [reduceTail_eq_ok {} hfold hhead, replayState_ok hfold]
    rfl

/-- A checkpoint that is taken gives what the replay gives, or fails with it. -/
theorem loadCheckpointTail_eq (hcodec : codec.Faithful log)
    (hlog : store.effectiveEntries record.sessionId = .ok log)
    (hnumbered : Numbered CoreAgentEntry.seq 1 log) (hhead : record.head = positionFromNonzeroSeq n)
    (hpos : 0 < n) (hn : n ≤ log.length) (hturns : n < turns)
    (hstored : checkpoint.Stored codec blobs record log) :
    ∃ loaded, store.loadCheckpointTail codec blobs turns record n checkpoint = some loaded ∧
      ∀ taken, loaded = .ok taken → replayState (log.take n) = .ok taken.reduced.coreState := by
  unfold loadCheckpointTail
  cases hstate : checkpointState codec blobs record n checkpoint with
  | error error => exact ⟨_, rfl, fun taken htaken => by cases htaken⟩
  | ok state =>
    obtain ⟨hthrough, hlength, hfold⟩ := checkpointState_eq_ok hcodec hnumbered hhead hstored hstate
    have hpage : 1 ≤ checkpointReadPage := by decide
    have hturns' : n - checkpoint.throughSeq < turns := Nat.lt_of_le_of_lt (Nat.sub_le ..) hturns
    have hread := readEntriesThrough_eq hlog hnumbered hpage hn hthrough hturns'
    have hcut : log.take n =
        log.take checkpoint.throughSeq ++ (log.drop checkpoint.throughSeq).take (n - checkpoint.throughSeq) := by
      rw [← List.take_add, Nat.add_sub_of_le hthrough]
    dsimp only
    refine ⟨_, by rw [hread, Option.map_some], fun taken htaken => ?_⟩
    cases htail : ((log.drop checkpoint.throughSeq).take (n - checkpoint.throughSeq)).foldlM applyEvent
        state with
    | error error =>
      rw [reduceTail_eq_error ⟨state, 0⟩ htail] at htaken
      cases htaken
    | ok final =>
      have hwhole : (log.take n).foldlM applyEvent {} = .ok final := by
        rw [hcut]
        exact foldlM_append_eq_ok.mpr ⟨state, hfold, htail⟩
      have hfinal : final.reducedTo = some n := by
        rw [reducedTo_of_log hnumbered hwhole hn]
        exact if_pos hpos
      rw [reduceTail_eq_ok ⟨state, 0⟩ htail hfinal] at htaken
      rw [replayState_ok hwhole, ← Except.ok.inj htaken]

/-- Whatever pointer is stored, a session loads with the state that its log reduces to. -/
theorem loadReduction_eq (hcodec : codec.Faithful log)
    (hlog : store.effectiveEntries record.sessionId = .ok log)
    (hnumbered : Numbered CoreAgentEntry.seq 1 log) (hhead : record.head = positionFromNonzeroSeq n)
    (hn : n ≤ log.length) (hturns : n < turns)
    (hstored : ∀ checkpoint, store.checkpoints.get? record.sessionId = some checkpoint →
      checkpoint.Stored codec blobs record log) :
    ∃ loaded, store.loadReduction codec blobs turns record = some loaded ∧
      loaded.map (fun loaded => loaded.reduced.coreState) = replayState (log.take n) := by
  unfold loadReduction
  rcases Nat.eq_zero_or_pos n with rfl | hpos
  · rw [hhead]
    exact ⟨_, rfl, rfl⟩
  · have hsome : record.head = some n := hhead.trans (if_pos hpos)
    obtain ⟨whole, hwhole, hstate⟩ : ∃ whole, store.replay codec turns record n = some whole ∧
        whole.map (fun loaded => loaded.reduced.coreState) = replayState (log.take n) :=
      replay_eq hlog hnumbered hpos hn hturns
    rw [hsome]
    dsimp only
    split
    · rename_i checkpoint hload
      have hpointer : store.checkpoints.get? record.sessionId = some checkpoint := by
        obtain ⟨_, -, hget⟩ := bind_eq_ok.mp hload
        exact Except.ok.inj hget
      obtain ⟨tail, htail, htaken⟩ :=
        loadCheckpointTail_eq hcodec hlog hnumbered hhead hpos hn hturns (hstored checkpoint hpointer)
      rw [htail]
      cases tail with
      | error error => exact ⟨whole, hwhole, hstate⟩
      | ok taken => exact ⟨_, rfl, (htaken taken rfl).symm⟩
    · exact ⟨whole, hwhole, hstate⟩

/-! ## Pointers that move -/

/-- The store after calls that advance pointers. A call that fails changes nothing. -/
def advanceCheckpoints (store : Store) (requests : List SessionCheckpoint) : Store :=
  requests.foldl (fun store request => ((store.advanceCheckpoint request).toOption.map Prod.fst).getD store)
    store

/-- A pointer that moves does not go back. -/
theorem advanceCheckpoint_le {request current : SessionCheckpoint} {advanced : Bool} {sessionId : SessionId}
    (h : store.advanceCheckpoint request = .ok (store', advanced))
    (hcurrent : store.checkpoints.get? sessionId = some current) :
    ∃ later, store'.checkpoints.get? sessionId = some later ∧ current.throughSeq ≤ later.throughSeq := by
  unfold advanceCheckpoint at h
  obtain ⟨-, -, h⟩ := bind_eq_ok.mp h
  split_ifs at h with hbars
  · obtain ⟨rfl, -⟩ := Prod.mk.inj (Except.ok.inj h)
    exact ⟨current, hcurrent, Nat.le_refl _⟩
  · obtain ⟨rfl, -⟩ := Prod.mk.inj (Except.ok.inj h)
    by_cases hid : request.sessionId = sessionId
    · subst hid
      refine ⟨request, OrdMap.get?_insert_self .., ?_⟩
      rw [hcurrent, Option.any_some, SessionCheckpoint.bars, Bool.or_eq_true, not_or, decide_eq_true_eq]
        at hbars
      exact Nat.le_of_not_lt hbars.1
    · exact ⟨current, (OrdMap.get?_insert_ne _ _ hid).trans hcurrent, Nat.le_refl _⟩

theorem advanceCheckpoints_le {requests : List SessionCheckpoint} {current : SessionCheckpoint}
    {sessionId : SessionId} (hcurrent : store.checkpoints.get? sessionId = some current) :
    ∃ later, (store.advanceCheckpoints requests).checkpoints.get? sessionId = some later ∧
      current.throughSeq ≤ later.throughSeq := by
  unfold advanceCheckpoints
  induction requests generalizing store current with
  | nil => exact ⟨current, hcurrent, Nat.le_refl _⟩
  | cons request requests ih =>
    rw [List.foldl_cons]
    cases hadvance : store.advanceCheckpoint request with
    | error error => exact ih hcurrent
    | ok result =>
      obtain ⟨next, hnext, hle⟩ := advanceCheckpoint_le hadvance hcurrent
      obtain ⟨later, hlater, hle'⟩ := ih hnext
      exact ⟨later, hlater, Nat.le_trans hle hle'⟩

/-- Loading through a checkpoint changes nothing: whatever pointer is stored, a session at a head loads with
the state that its whole log reduces to up to there, or fails as the replay does, and no sequence of calls
takes a pointer back. -/
theorem checkpoint_changes_nothing (hcodec : codec.Faithful log)
    (hlog : store.effectiveEntries record.sessionId = .ok log)
    (hnumbered : Numbered CoreAgentEntry.seq 1 log) (hhead : record.head = positionFromNonzeroSeq n)
    (hn : n ≤ log.length)
    (hstored : ∀ checkpoint, store.checkpoints.get? record.sessionId = some checkpoint →
      checkpoint.Stored codec blobs record log) :
    (∀ turns, n < turns → ∃ loaded, store.loadReduction codec blobs turns record = some loaded ∧
      loaded.map (fun loaded => loaded.reduced.coreState) =
        (reduceSessionEntries (log.take n)).map ReducedSession.coreState) ∧
    ∀ (store : Store) (requests : List SessionCheckpoint) (sessionId : SessionId)
      (current : SessionCheckpoint), store.checkpoints.get? sessionId = some current →
      ∃ later, (store.advanceCheckpoints requests).checkpoints.get? sessionId = some later ∧
        current.throughSeq ≤ later.throughSeq := by
  constructor
  · intro turns hturns
    exact loadReduction_eq hcodec hlog hnumbered hhead hn hturns hstored
  · intro store requests sessionId current hcurrent
    exact advanceCheckpoints_le hcurrent

end Store

/-! ## A session with a checkpoint -/

/-- A codec for the states of one short log: a state is the number of the entry that it was reduced to. -/
def logCodec (log : List CoreAgentEntry) : CheckpointCodec where
  encode state := [UInt8.ofNat (state.reducedTo.getD 0)]
  decode bytes := bytes.head?.bind fun byte => ((log.take byte.toNat).foldlM applyEvent {}).toOption
  entryBytes _ := 1
  fromBytes bytes := ⟨String.ofList (bytes.map Char.ofUInt8)⟩

theorem logCodec_faithful (hnumbered : Numbered CoreAgentEntry.seq 1 log) (hshort : log.length < 256) :
    (logCodec log).Faithful log := by
  constructor
  · intro n state hfold
    have hposition := reducedTo_of_foldlM (hnumbered.take n) hfold rfl
    have hseq : state.reducedTo.getD 0 = (log.take n).length := by
      rw [hposition, getD_positionFromNonzeroSeq, Nat.zero_add]
    have hsmall : (log.take n).length < 256 := by
      rw [List.length_take]
      exact Nat.lt_of_le_of_lt (Nat.min_le_right ..) hshort
    have htake : log.take (log.take n).length = log.take n := by
      rw [List.length_take, ← List.take_eq_take_min]
    have hbyte : (UInt8.ofNat (log.take n).length).toNat = (log.take n).length :=
      UInt8.toNat_ofNat_of_lt' hsmall
    show ((log.take (UInt8.ofNat (state.reducedTo.getD 0)).toNat).foldlM applyEvent {}).toOption = some state
    rw [hseq, hbyte, htake, hfold]
    rfl
  · intro n state _ bytes hbytes
    have hchar : Function.Injective Char.ofUInt8 := by
      intro a b h
      have hval : a.toUInt32.toNat = b.toUInt32.toNat := congrArg (fun c => c.val.toNat) h
      rw [UInt8.toNat_toUInt32, UInt8.toNat_toUInt32] at hval
      exact UInt8.toNat_inj.mp hval
    have hlist := String.ofList_injective (congrArg BlobRef.content hbytes)
    exact List.map_injective_iff.mpr hchar hlist

/-- The log of a session that opened and closed. -/
def closedLog : List CoreAgentEntry :=
  [{ seq := 1, observedAtMs := 1, event := openingEvent.event },
    { seq := 2, observedAtMs := 2, event := .lifecycle .closed }]

def closedRecord : SessionRecord where
  sessionId := "session"
  lifecycleStatus := .closed
  closedAtSeq := some 2
  closedAtMs := some 2
  retentionRootSessionId := "session"
  head := some 2
  createdAtMs := 0
  updatedAtMs := 2

/-- The pointer that was written when the session had opened. -/
def openedCheckpoint : SessionCheckpoint where
  sessionId := "session"
  throughSeq := 1
  formatVersion := sessionCheckpointFormatVersion
  stateRef := (logCodec closedLog).fromBytes [1]
  lineageSourceSessionId := none
  lineageSourceSeq := none
  byteLen := 1
  createdAtMs := 1

def closedStore : Store where
  records := OrdMap.ofList [("session", closedRecord)]
  entries := OrdMap.ofList [("session", closedLog)]
  checkpoints := OrdMap.ofList [("session", openedCheckpoint)]

def closedBlobs : Blobs := fun blobRef => if blobRef = openedCheckpoint.stateRef then some [1] else none

namespace Store

theorem checkpoint_changes_nothing_closed :
    ∃ loaded, closedStore.loadReduction (logCodec closedLog) closedBlobs 3 closedRecord = some loaded ∧
      loaded.map (fun loaded => loaded.reduced.coreState) =
        (reduceSessionEntries closedLog).map ReducedSession.coreState := by
  have hnumbered : Numbered CoreAgentEntry.seq 1 closedLog := rfl
  have hcodec := logCodec_faithful hnumbered (by decide)
  have hlog : closedStore.effectiveEntries closedRecord.sessionId = .ok closedLog := by rfl
  have hstored : ∀ checkpoint, closedStore.checkpoints.get? closedRecord.sessionId = some checkpoint →
      checkpoint.Stored (logCodec closedLog) closedBlobs closedRecord closedLog := by
    intro checkpoint hget
    obtain rfl : openedCheckpoint = checkpoint := Option.some.inj hget
    exact .written 1 ⟨_, rfl, rfl, rfl⟩
  have hall := checkpoint_changes_nothing (n := 2) hcodec hlog hnumbered rfl (by decide) hstored
  exact hall.1 3 (by decide)

end Store

end Lightspeed.Storage
