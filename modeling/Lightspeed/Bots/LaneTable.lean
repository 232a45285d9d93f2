import Lightspeed.Bots.BoardRuns

/-!
# The table of lanes

As long as no lane is put in another's place, the controller's table shows exactly what the lanes'
tasks hold, and no two lanes are on one session.
-/

namespace Lightspeed.Bots

open Lib Harness Relation

variable {rules : Rules} {sha256Hex : String → String} {a b : Board} {s : System}

/-- No lane took another's place when it moved to a new session id. -/
def NoneDisplaced (log : List Obs) : Prop :=
  ∀ obs ∈ log, ∀ source target lane, obs ≠ .rekeyed source target (some lane)

theorem NoneDisplaced.of_append {log more : List Obs} (h : NoneDisplaced (log ++ more)) :
    NoneDisplaced log := fun obs hobs => h obs (List.mem_append_left more hobs)

/-- What happened stays in the log. -/
theorem Move.log_grows (h : Move rules a b) : ∃ more, b.log = a.log ++ more := by
  cases h with
  | configure | ready | accept | openBuffer | joinBuffer | flush | rekey | begin | finish
  | asideDone | archive => exact ⟨_, rfl⟩
  | _ => exact ⟨[], (List.append_nil _).symm⟩

/-- The table shows what the tasks hold, one lane for a session, and a lane that only waits has a
run. -/
structure Board.Owned (b : Board) : Prop where
  lanes : b.view.lanes = b.holds
  nodup : (b.holds.map Hold.target).Nodup
  started : ∀ h ∈ b.holds, h.parked = true → h.started = true

section

variable {h : Hold} {rest : Multiset Hold} {target : String} {f : Hold → Hold}

/-- The other lanes are on other sessions. -/
theorem target_ne_of_nodup (hnodup : ((h ::ₘ rest).map Hold.target).Nodup) :
    ∀ l ∈ rest, l.target ≠ h.target := by
  rw [Multiset.map_cons, Multiset.nodup_cons] at hnodup
  intro l hl heq
  exact hnodup.1 (heq ▸ Multiset.mem_map_of_mem Hold.target hl)

theorem filter_ne_of_nodup (hnodup : ((h ::ₘ rest).map Hold.target).Nodup) :
    (h ::ₘ rest).filter (fun l => l.target ≠ h.target) = rest := by
  rw [Multiset.filter_cons_of_neg (p := fun l : Hold => l.target ≠ h.target) _ (by simp)]
  exact Multiset.filter_eq_self.mpr (target_ne_of_nodup hnodup)

theorem filter_eq_of_nodup (hnodup : ((h ::ₘ rest).map Hold.target).Nodup) :
    (h ::ₘ rest).filter (fun l => l.target = h.target) = {h} := by
  have hrest : rest.filter (fun l => l.target = h.target) = 0 :=
    Multiset.filter_eq_nil.mpr (target_ne_of_nodup hnodup)
  rw [Multiset.filter_cons_of_pos (p := fun l : Hold => l.target = h.target) _ rfl, hrest]
  rfl

/-- Only the lane on the session is marked. -/
theorem map_mark_of_nodup (hnodup : ((h ::ₘ rest).map Hold.target).Nodup) :
    (h ::ₘ rest).map (fun l => if l.target = h.target then f l else l) = f h ::ₘ rest := by
  have hrest : rest.map (fun l => if l.target = h.target then f l else l) = rest := by
    calc rest.map (fun l => if l.target = h.target then f l else l) = rest.map id :=
          Multiset.map_congr rfl fun l hl => if_neg (target_ne_of_nodup hnodup l hl)
      _ = rest := Multiset.map_id rest
  rw [Multiset.map_cons, if_pos rfl, hrest]

theorem nodup_of_cons (hnodup : ((h ::ₘ rest).map Hold.target).Nodup) :
    (rest.map Hold.target).Nodup := by
  rw [Multiset.map_cons, Multiset.nodup_cons] at hnodup
  exact hnodup.2

/-- A lane that moves to a free session. -/
theorem rekey_lanes {v : View} (hlanes : v.lanes = h ::ₘ rest)
    (hnodup : ((h ::ₘ rest).map Hold.target).Nodup) (hfree : ∀ l ∈ rest, l.target ≠ target) :
    (v.rekey h.target target).lanes = { h with target } ::ₘ rest := by
  have hmem : h.target ∈ v.lanes.map Hold.target := by
    rw [hlanes]
    exact Multiset.mem_map_of_mem Hold.target (Multiset.mem_cons_self h rest)
  have hrest : (h ::ₘ rest).filter (fun l => l.target ≠ h.target ∧ l.target ≠ target) = rest := by
    rw [← Multiset.filter_filter, Multiset.filter_comm, filter_ne_of_nodup hnodup]
    exact Multiset.filter_eq_self.mpr hfree
  unfold View.rekey
  dsimp only
  rw [if_pos hmem, hlanes, filter_eq_of_nodup hnodup, hrest, Multiset.map_singleton,
    Multiset.singleton_add]

/-- The lanes without the one that is gone. -/
theorem Board.Owned.freed (ha : a.Owned) (hholds : a.holds = h ::ₘ rest) :
    (a.view.free h.target).lanes = rest ∧ (rest.map Hold.target).Nodup ∧
      ∀ l ∈ rest, l.parked = true → l.started = true := by
  have hnodup := hholds ▸ ha.nodup
  refine ⟨?_, nodup_of_cons hnodup, fun l hl => ha.started l (hholds ▸ Multiset.mem_cons_of_mem hl)⟩
  show a.view.lanes.filter (fun l => l.target ≠ h.target) = rest
  rw [ha.lanes, hholds]
  exact filter_ne_of_nodup hnodup

/-- The lanes with one that reports something. -/
theorem Board.Owned.marked (ha : a.Owned) (hholds : a.holds = h ::ₘ rest)
    (hf : (f h).target = h.target) :
    (a.view.mark h.target f).lanes = f h ::ₘ rest ∧ ((f h ::ₘ rest).map Hold.target).Nodup := by
  have hnodup := hholds ▸ ha.nodup
  constructor
  · show a.view.lanes.map (fun l => if l.target = h.target then f l else l) = f h ::ₘ rest
    rw [ha.lanes, hholds]
    exact map_mark_of_nodup hnodup
  · rw [Multiset.map_cons, hf, ← Multiset.map_cons]
    exact hnodup

end

/-- Every move keeps the table, unless it puts a lane in another's place. -/
theorem Board.Owned.move (hmove : Move rules a b) (hnone : NoneDisplaced b.log) (ha : a.Owned) :
    b.Owned := by
  cases hmove with
  | rollDay => exact ⟨(View.roll_lanes _ _).trans ha.lanes, ha.nodup, ha.started⟩
  | take before after delivery target hpending hfree hfirst hid hday hbudget aligned =>
    refine ⟨congrArg (_ ::ₘ ·) ha.lanes, ?_, fun h hh hparked => ?_⟩
    · rw [Multiset.map_cons, Multiset.nodup_cons]
      refine ⟨fun hmem => ?_, ha.nodup⟩
      obtain ⟨l, hl, htarget⟩ := Multiset.mem_map.mp hmem
      exact hfree l (ha.lanes ▸ hl) htarget
    · rcases Multiset.mem_cons.mp hh with rfl | hold
      · cases hparked
      · exact ha.started h hold hparked
  | rekey h rest target displaced hholds hdisplaced hid =>
    have hnodup := hholds ▸ ha.nodup
    have hlanes : a.view.lanes = h ::ₘ rest := ha.lanes.trans hholds
    have hkept : displaced = none := by
      cases displaced with
      | none => rfl
      | some lane => exact absurd rfl (hnone _ (List.mem_append_right _ List.mem_cons_self) _ _ lane)
    have hmem : h.target ∈ a.view.lanes.map Hold.target := by
      rw [hlanes]
      exact Multiset.mem_map_of_mem Hold.target (Multiset.mem_cons_self h rest)
    have hfree : ∀ l ∈ rest, l.target ≠ target := fun l hl =>
      hdisplaced hkept hmem l (hlanes ▸ Multiset.mem_cons_of_mem hl) (target_ne_of_nodup hnodup l hl)
    refine ⟨rekey_lanes hlanes hnodup hfree, ?_, fun l hl => ?_⟩
    · rw [Multiset.map_cons, Multiset.nodup_cons]
      refine ⟨fun hmem => ?_, nodup_of_cons hnodup⟩
      obtain ⟨l, hl, htarget⟩ := Multiset.mem_map.mp hmem
      exact hfree l hl htarget
    · rcases Multiset.mem_cons.mp hl with rfl | hold
      · exact ha.started h (hholds ▸ Multiset.mem_cons_self _ _)
      · exact ha.started l (hholds ▸ Multiset.mem_cons_of_mem hold)
  | requeue h rest delivery hholds hstarted hcore | finish h rest hholds
  | drop h rest hholds hevents =>
    obtain ⟨hlanes, hnodup, hparked⟩ := ha.freed hholds
    exact ⟨hlanes, hnodup, hparked⟩
  | begin h rest runId hholds hstarted hparked hbusy =>
    obtain ⟨hlanes, hnodup⟩ := ha.marked (f := fun l => { l with started := true }) hholds rfl
    refine ⟨(View.roll_lanes _ _).trans hlanes, hnodup, fun l hl hpark => ?_⟩
    rcases Multiset.mem_cons.mp hl with rfl | hold
    · rfl
    · exact ha.started l (hholds ▸ Multiset.mem_cons_of_mem hold) hpark
  | park h rest hholds hstarted =>
    obtain ⟨hlanes, hnodup⟩ := ha.marked (f := fun l => { l with parked := true }) hholds rfl
    refine ⟨hlanes, hnodup, fun l hl hpark => ?_⟩
    rcases Multiset.mem_cons.mp hl with rfl | hold
    · exact hstarted
    · exact ha.started l (hholds ▸ Multiset.mem_cons_of_mem hold) hpark
  | renew dirty seen hdirty hseen hparked hcount =>
    refine ⟨rfl, ?_, fun h hh _ => (Multiset.mem_filter.mp hh).2⟩
    have hlanes : (a.view.lanes.map Hold.target).Nodup := ha.lanes ▸ ha.nodup
    exact Multiset.nodup_of_le (Multiset.map_le_map (Multiset.filter_le _ _)) hlanes
  | _ => exact ⟨ha.lanes, ha.nodup, ha.started⟩

theorem initial_owned (h : System.Initial s) : s.board.Owned := by
  obtain ⟨config, mainGeneration, sessionGenerations, nowMs, rfl⟩ := h.eq_start
  exact ⟨rfl, Multiset.nodup_zero, fun h hh => absurd hh (Multiset.notMem_zero h)⟩

/-- What the moves keep of a board whose table is what the tasks hold. -/
theorem Board.Owned.chain {P : Board → Prop}
    (hmove : ∀ a b, Move rules a b → a.Owned → NoneDisplaced b.log → P a → P b) {a b : Board}
    (h : Move rules a b) (ha : NoneDisplaced a.log → a.Owned ∧ P a) :
    NoneDisplaced b.log → b.Owned ∧ P b := by
  intro hnone
  obtain ⟨more, hmore⟩ := h.log_grows
  obtain ⟨howned, hP⟩ := ha (hmore ▸ hnone).of_append
  exact ⟨howned.move h hnone, hmove a b h howned hnone hP⟩

/-- What holds at the start and is kept by the moves of an owned board holds of every board that comes
up before a lane is put in another's place. -/
theorem reaches_owned_board {P : Board → Prop} (hinit : ∀ s : System, System.Initial s → P s.board)
    (hmove : ∀ a b, Move ⟨False, False⟩ a b → a.Owned → NoneDisplaced b.log → P a → P b)
    (h : (System.controller sha256Hex).Reaches s) (hnone : NoneDisplaced s.log) :
    s.board.Owned ∧ P s.board := by
  refine reaches_board (P := fun b => NoneDisplaced b.log → b.Owned ∧ P b) ?_ ?_ h hnone
  · exact fun s hs _ => ⟨initial_owned hs, hinit s hs⟩
  · exact fun a b hab ha => Board.Owned.chain hmove hab ha

/-- Until a lane is put in another's place, the table of a controller shows what its tasks hold, one lane for a
session, and a lane that only waits has a run. -/
theorem lanes_owned (h : (System.controller sha256Hex).Reaches s) (hnone : NoneDisplaced s.log) : s.board.Owned :=
  (reaches_owned_board (P := fun _ => True) (fun _ _ => trivial) (fun _ _ _ _ _ _ => trivial) h hnone).1

theorem lanes_owned_triage : ∃ s, (System.controller id).Reaches s ∧ s.state.activeBySession.values ≠ [] ∧
    s.board.Owned := by
  obtain ⟨s, hs, hlane, hlog⟩ : ∃ s ∈ (System.controller id).exec triageStart triageDispatched,
      s.state.activeBySession.values ≠ [] ∧ s.log = [.configured triageConfig, .accepted triageEvent,
        .queued (.single triageEvent), .ready triageRequest 1] := by decide +kernel
  have hreach := Machine.exec_reaches triageStart_initial hs
  refine ⟨s, hreach, hlane, lanes_owned hreach ?_⟩
  rw [hlog]
  simp [NoneDisplaced]

end Lightspeed.Bots
