import Lightspeed.Bots.LoopMoves

/-!
# The board over a run

What holds of every board that a controller's run shows: an invariant of the moves holds at the end of
a run whose steps meet what the moves ask for. Every delivery on the board goes by a route of its
admission.
-/

namespace Lightspeed.Bots

open Lib Harness Relation

variable {rules : Rules} {sha256Hex : String → String} {a b : Board} {s : System}
  {d d' : BotDelivery}

@[simp] theorem View.roll_main (v : View) (nowMs : Int) : (v.roll nowMs).main = v.main := by
  unfold View.roll
  split_ifs <;> rfl

@[simp] theorem View.roll_pending (v : View) (nowMs : Int) : (v.roll nowMs).pending = v.pending := by
  unfold View.roll
  split_ifs <;> rfl

@[simp] theorem View.roll_buffers (v : View) (nowMs : Int) : (v.roll nowMs).buffers = v.buffers := by
  unfold View.roll
  split_ifs <;> rfl

@[simp] theorem View.roll_lanes (v : View) (nowMs : Int) : (v.roll nowMs).lanes = v.lanes := by
  unfold View.roll
  split_ifs <;> rfl

theorem session_eq_of_core (h : d.core = d'.core) : d.session = d'.session := by
  have : d.core.session = d'.core.session := by rw [h]
  exact this

theorem events_eq_of_core (h : d.core = d'.core) : d.events = d'.events := by
  have : d.core.events = d'.core.events := by rw [h]
  exact this

/-- Whatever happens, it is the same bot. -/
theorem Move.botId_eq (h : Move rules a b) :
    b.view.main.config.botId = a.view.main.config.botId := by
  cases h with
  | configure next hid => exact hid
  | rollDay => rw [View.roll_main]
  | begin h rest runId => rw [View.roll_main]; rfl
  | _ => rfl

theorem moves_botId_eq (h : ReflTransGen (Move rules) a b) :
    b.view.main.config.botId = a.view.main.config.botId := by
  induction h with
  | refl => rfl
  | tail _ hmove ih => exact hmove.botId_eq.trans ih

/-! ## Routes -/

/-- Everything on the board goes to the main session or by a route of its admission. -/
structure Board.Routed (b : Board) : Prop where
  pending : ∀ d ∈ b.view.pending, d.RoutedFor b.view.main.config.botId
  buffers : ∀ buffer ∈ b.view.buffers, ∀ session ∈ buffer.session,
    session.RoutedFor b.view.main.config.botId
  lanes : ∀ l ∈ b.view.lanes, l.delivery.RoutedFor b.view.main.config.botId
  holds : ∀ h ∈ b.holds, h.delivery.RoutedFor b.view.main.config.botId
  asides : ∀ d ∈ b.asides, d.RoutedFor b.view.main.config.botId

theorem routedFor_of_core {botId : BotId} (h : d.core = d'.core) (hd : d'.RoutedFor botId) :
    d.RoutedFor botId := by
  unfold BotDelivery.RoutedFor at hd ⊢
  rwa [session_eq_of_core h]

/-- Marking a lane changes no delivery. -/
theorem delivery_mem_mark {v : View} {target : String} {f : Hold → Hold} {l : Hold}
    (hf : ∀ h, (f h).delivery = h.delivery) (hl : l ∈ (v.mark target f).lanes) :
    ∃ old ∈ v.lanes, l.delivery = old.delivery := by
  obtain ⟨old, hold, rfl⟩ := Multiset.mem_map.mp hl
  refine ⟨old, hold, ?_⟩
  split_ifs
  · exact hf old
  · rfl

theorem delivery_mem_rekey {v : View} {source target : String} {l : Hold}
    (hl : l ∈ (v.rekey source target).lanes) : ∃ old ∈ v.lanes, l.delivery = old.delivery := by
  unfold View.rekey at hl
  dsimp only at hl
  split_ifs at hl
  · rcases Multiset.mem_add.mp hl with hl | hl
    · obtain ⟨old, hold, rfl⟩ := Multiset.mem_map.mp hl
      exact ⟨old, (Multiset.mem_filter.mp hold).1, rfl⟩
    · exact ⟨l, (Multiset.mem_filter.mp hl).1, rfl⟩
  · exact ⟨l, hl, rfl⟩

/-- What holds of everything on a board: of its deliveries, wherever they stand, and of its buffers. -/
structure Board.Everywhere (D : BotDelivery → Prop) (B : CoalesceBuffer → Prop) (b : Board) : Prop where
  pending : ∀ d ∈ b.view.pending, D d
  buffers : ∀ buffer ∈ b.view.buffers, B buffer
  lanes : ∀ l ∈ b.view.lanes, D l.delivery
  holds : ∀ h ∈ b.holds, D h.delivery
  asides : ∀ d ∈ b.asides, D d

/-- A move keeps what holds of everything on the board, when it holds of what the move accepts, and of the
delivery that a buffer becomes. -/
theorem Board.Everywhere.move {D : BotDelivery → Prop} {B : CoalesceBuffer → Prop}
    (hmove : Move rules a b) (ha : a.Everywhere D B)
    (hcore' : ∀ d d' : BotDelivery, d.core = d'.core → D d' → D d)
    (hsingle : ∀ event, .accepted event ∈ b.log → event.RoutedFor a.view.main.config.botId →
      D (.single event))
    (hopen : ∀ event (buffer : CoalesceBuffer), .accepted event ∈ b.log →
      event.RoutedFor a.view.main.config.botId → buffer.events = [event] →
      buffer.session = event.session → B buffer)
    (hjoin : ∀ event (buffer joined : CoalesceBuffer), .accepted event ∈ b.log →
      joined.events = buffer.events ++ [event] → joined.session = buffer.session → B buffer → B joined)
    (hflush : ∀ (buffer : CoalesceBuffer) (delivery : BotDelivery), delivery.events = buffer.events →
      delivery.session = buffer.session → B buffer → D delivery) : b.Everywhere D B := by
  have hqueued : ∀ {before after : List BotDelivery} {delivery : BotDelivery},
      a.view.pending = before ++ delivery :: after → D delivery ∧ ∀ d ∈ before ++ after, D d := by
    intro before after delivery hpending
    obtain ⟨hbefore, hdelivery, hafter⟩ := by
      simpa only [hpending, List.forall_mem_append, List.forall_mem_cons] using ha.pending
    exact ⟨hdelivery, List.forall_mem_append.mpr ⟨hbefore, hafter⟩⟩
  have hbuffered : ∀ {buffer : CoalesceBuffer} {rest : Multiset CoalesceBuffer},
      a.view.buffers = buffer ::ₘ rest → B buffer ∧ ∀ other ∈ rest, B other :=
    fun hbuffers => Multiset.forall_mem_cons.mp (hbuffers ▸ ha.buffers)
  have hheld : ∀ {h : Hold} {rest : Multiset Hold},
      a.holds = h ::ₘ rest → D h.delivery ∧ ∀ other ∈ rest, D other.delivery :=
    fun hholds => Multiset.forall_mem_cons.mp (hholds ▸ ha.holds)
  have haside : ∀ {d : BotDelivery} {rest : Multiset BotDelivery},
      a.asides = d ::ₘ rest → D d ∧ ∀ other ∈ rest, D other :=
    fun hasides => Multiset.forall_mem_cons.mp (hasides ▸ ha.asides)
  cases hmove with
  | tick nowMs hle | degrade | leave | configure next hid | rollMain | rotateMain hr
  | reconcile hdirty | ready request profileRevision hr current | archive log hlog =>
    exact ⟨ha.pending, ha.buffers, ha.lanes, ha.holds, ha.asides⟩
  | accept event hroute =>
    have hevent := hsingle event (List.mem_append_right _ List.mem_cons_self) hroute
    exact ⟨List.forall_mem_append.mpr ⟨ha.pending, List.forall_mem_singleton.mpr hevent⟩, ha.buffers, ha.lanes,
      ha.holds, ha.asides⟩
  | openBuffer event buffer hroute hevents hsession =>
    have hbuffer := hopen event buffer (List.mem_append_right _ List.mem_cons_self) hroute hevents hsession
    exact ⟨ha.pending, Multiset.forall_mem_cons.mpr ⟨hbuffer, ha.buffers⟩, ha.lanes, ha.holds, ha.asides⟩
  | joinBuffer event buffer joined rest hbuffers hevents hsession =>
    obtain ⟨hbuffer, hrest⟩ := hbuffered hbuffers
    have hjoined := hjoin event buffer joined (List.mem_append_right _ List.mem_cons_self) hevents hsession hbuffer
    exact ⟨ha.pending, Multiset.forall_mem_cons.mpr ⟨hjoined, hrest⟩, ha.lanes, ha.holds, ha.asides⟩
  | flush buffer rest delivery hbuffers hevents hsession hcore =>
    obtain ⟨hbuffer, hrest⟩ := hbuffered hbuffers
    have hdelivery := hflush buffer delivery hevents hsession hbuffer
    exact ⟨List.forall_mem_append.mpr ⟨ha.pending, List.forall_mem_singleton.mpr hdelivery⟩, hrest, ha.lanes,
      ha.holds, ha.asides⟩
  | dropBuffer buffer rest hbuffers hevents =>
    exact ⟨ha.pending, (hbuffered hbuffers).2, ha.lanes, ha.holds, ha.asides⟩
  | rollDay => exact ⟨by simpa using ha.pending, by simpa using ha.buffers,
      by simpa using ha.lanes, by simpa using ha.holds, by simpa using ha.asides⟩
  | take before after delivery target hpending hfree hfirst hid hday hbudget aligned =>
    obtain ⟨hdelivery, hrest⟩ := hqueued hpending
    exact ⟨hrest, ha.buffers, Multiset.forall_mem_cons.mpr ⟨hdelivery, ha.lanes⟩,
      Multiset.forall_mem_cons.mpr ⟨hdelivery, ha.holds⟩, ha.asides⟩
  | aside before after delivery hpending hbusy =>
    obtain ⟨hdelivery, hrest⟩ := hqueued hpending
    exact ⟨hrest, ha.buffers, ha.lanes, ha.holds, Multiset.forall_mem_cons.mpr ⟨hdelivery, ha.asides⟩⟩
  | rekey h rest target displaced hholds hdisplaced hid =>
    obtain ⟨hh, hrest⟩ := hheld hholds
    refine ⟨ha.pending, ha.buffers, fun l hl => ?_, Multiset.forall_mem_cons.mpr ⟨hh, hrest⟩, ha.asides⟩
    obtain ⟨old, hold, heq⟩ := delivery_mem_rekey hl
    exact heq ▸ ha.lanes old hold
  | requeue h rest delivery hholds hstarted hcore =>
    obtain ⟨hh, hrest⟩ := hheld hholds
    exact ⟨List.forall_mem_cons.mpr ⟨hcore' _ _ hcore hh, ha.pending⟩, ha.buffers,
      fun l hl => ha.lanes l (Multiset.mem_filter.mp hl).1, hrest, ha.asides⟩
  | begin h rest runId hholds hstarted hparked hbusy =>
    obtain ⟨hh, hrest⟩ := hheld hholds
    refine ⟨by simpa [View.mark] using ha.pending, by simpa [View.mark] using ha.buffers,
      fun l hl => ?_, Multiset.forall_mem_cons.mpr ⟨hh, hrest⟩, by simpa [View.mark] using ha.asides⟩
    rw [View.roll_lanes] at hl
    obtain ⟨old, hold, heq⟩ := delivery_mem_mark (by exact fun _ => rfl) hl
    exact heq ▸ ha.lanes old hold
  | park h rest hholds hstarted =>
    obtain ⟨hh, hrest⟩ := hheld hholds
    refine ⟨ha.pending, ha.buffers, fun l hl => ?_, Multiset.forall_mem_cons.mpr ⟨hh, hrest⟩, ha.asides⟩
    have hl : l ∈ (a.view.mark h.target fun l => { l with parked := true }).lanes := hl
    obtain ⟨old, hold, heq⟩ := delivery_mem_mark (by exact fun _ => rfl) hl
    exact heq ▸ ha.lanes old hold
  | finish h rest hholds | drop h rest hholds hevents =>
    exact ⟨ha.pending, ha.buffers, fun l hl => ha.lanes l (Multiset.mem_filter.mp hl).1, (hheld hholds).2,
      ha.asides⟩
  | asideBack held rest delivery hasides hcore =>
    obtain ⟨hback, hrest⟩ := haside hasides
    exact ⟨List.forall_mem_cons.mpr ⟨hcore' _ _ hcore hback, ha.pending⟩, ha.buffers, ha.lanes, ha.holds, hrest⟩
  | asideDone held rest hasides | asideDrop held rest hasides hevents =>
    exact ⟨ha.pending, ha.buffers, ha.lanes, ha.holds, (haside hasides).2⟩
  | clear htearing =>
    exact ⟨fun _ hd => (nomatch hd), fun _ hd => absurd hd (Multiset.notMem_zero _), ha.lanes,
      ha.holds, ha.asides⟩
  | renew dirty seen hdirty hseen hparked hcount =>
    exact ⟨ha.pending, ha.buffers, fun l hl => ha.lanes l (Multiset.mem_filter.mp hl).1,
      fun h hh => ha.lanes h (Multiset.mem_filter.mp hh).1,
      fun _ hd => absurd hd (Multiset.notMem_zero _)⟩

/-- Every move keeps the routes. -/
theorem Board.Routed.move (hmove : Move rules a b) (ha : a.Routed) : b.Routed := by
  have hall : a.Everywhere (fun d => d.RoutedFor a.view.main.config.botId) fun buffer =>
      ∀ session ∈ buffer.session, session.RoutedFor a.view.main.config.botId :=
    ⟨ha.pending, ha.buffers, ha.lanes, ha.holds, ha.asides⟩
  have hkept := hall.move hmove (fun d d' hcore hd => routedFor_of_core hcore hd)
    (fun event _ hroute => hroute) (fun event buffer _ hroute _ hsession => by rw [hsession]; exact hroute)
    (fun event buffer joined _ _ hsession hbuffer => by rw [hsession]; exact hbuffer)
    (fun buffer delivery _ hsession hbuffer => by rwa [← hsession] at hbuffer)
  rw [← hmove.botId_eq] at hkept
  exact ⟨hkept.pending, hkept.buffers, hkept.lanes, hkept.holds, hkept.asides⟩

/-! ## Runs -/

/-- A controller starts with an empty board. -/
theorem initial_everywhere {D : BotDelivery → Prop} {B : CoalesceBuffer → Prop} (h : System.Initial s) :
    s.tasks = [] ∧ s.board.Everywhere D B := by
  obtain ⟨config, mainGeneration, sessionGenerations, nowMs, rfl⟩ := h.eq_start
  exact ⟨rfl, nofun, fun _ h => absurd h (Multiset.notMem_zero _), fun _ h => absurd h (Multiset.notMem_zero _),
    fun _ h => absurd h (Multiset.notMem_zero _), fun _ h => absurd h (Multiset.notMem_zero _)⟩

/-- Every state that comes up has sound waits and routes of admission only. -/
theorem reaches_sound (h : (System.controller sha256Hex).Reaches s) :
    TasksSound s ∧ s.board.Routed := by
  refine h.invariant (P := fun s => TasksSound s ∧ s.board.Routed) ?_ ?_
  · intro s hinit
    obtain ⟨htasks, hpending, hbuffers, hlanes, hholds, hasides⟩ := initial_everywhere hinit
    refine ⟨fun task hmem => ?_, hpending, hbuffers, hlanes, hholds, hasides⟩
    rw [htasks] at hmem
    cases hmem
  · intro s input t _ ⟨hsound, hrouted⟩ hstep
    have hfits : StepFits ⟨False, False⟩ s t :=
      step_fits (fun h => h.elim) hsound ⟨fun h => h.elim, fun h => h.elim⟩ hstep
    refine ⟨fun task hmem => ?_, chain_preserves (fun _ _ => Board.Routed.move) hfits.moves hrouted⟩
    have hid : t.state.config.botId = s.state.config.botId := moves_botId_eq hfits.moves
    rw [hid]
    rcases hfits.tasks task hmem with hold | hnew
    · exact hsound task hold
    · exact hnew

theorem tasksRouted_of_board (h : s.board.Routed) : TasksRouted s := by
  intro task hmem
  cases task with
  | lane delivery target pc =>
    exact h.holds ⟨delivery, target, pc.started, pc.parked⟩
      (mem_holdsOf.mpr ⟨delivery, target, pc, hmem, rfl⟩)
  | sidecar delivery target pc => trivial
  | settling delivery sessionId outcome pc => trivial
  | invocation pending pc => trivial

/-- What the moves keep, of the board of a run whose steps meet what the moves ask for. -/
theorem run_board {P : Board → Prop} {steps : List (System × System.Input)}
    (hinit : ∀ s : System, System.Initial s → P s.board)
    (hmove : ∀ a b, Move rules a b → P a → P b)
    (hrun : (System.controller sha256Hex).Run steps s)
    (hmeets : ∀ step ∈ steps, StepMeets rules step.1 step.2) : P s.board := by
  refine hrun.invariant (P := fun s => P s.board) (M := StepMeets rules) hinit ?_ hmeets
  intro s input t hreach hP hmeets hstep
  obtain ⟨hsound, hrouted⟩ := reaches_sound hreach
  have hfits := step_fits (fun _ => tasksRouted_of_board hrouted) hsound hmeets hstep
  exact chain_preserves hmove hfits.moves hP

/-- What every move keeps holds of every board that comes up. -/
theorem reaches_board {P : Board → Prop} (hinit : ∀ s : System, System.Initial s → P s.board)
    (hmove : ∀ a b, Move ⟨False, False⟩ a b → P a → P b)
    (h : (System.controller sha256Hex).Reaches s) : P s.board := by
  obtain ⟨steps, hrun⟩ := h
  exact run_board hinit hmove hrun fun _ _ => ⟨fun h => h.elim, fun h => h.elim⟩

/-! ## A controller -/

def triageConfig : BotControllerConfig :=
  { universeId := "u", botId := triage, profileId := "p", enabled := true }

def triageStart : System :=
  .start { config := triageConfig, carry := some {} } 1000 [.configured triageConfig]

theorem triageStart_initial : System.Initial triageStart :=
  ⟨triageConfig, 0, ∅, 1000, rfl⟩

/-- The first pass, up to the request for the main session. -/
def untilEnsuring : List System.Input := .loop .woken :: List.replicate 12 (.run false)

/-- The request that the first pass makes. -/
def triageRequest : BotEnsureSessionRequest :=
  ensureRequest triageStart.state triageStart.state.mainSessionId triageStart.state.botLabel none none
    none

def triageEvent : BotEvent := { id := "e", seq := 1, documentRef := "d" }

/-- An event that comes before the first pass, and is taken by a lane at its end. -/
def triageDispatched : List System.Input :=
  .botEvent triageEvent :: untilEnsuring ++ [.loop (.ensured 1 []), .run false]

end Lightspeed.Bots
