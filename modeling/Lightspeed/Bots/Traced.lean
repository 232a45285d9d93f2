import Lightspeed.Bots.Conservation

/-!
# What the board holds was accepted

Whatever happens on a board, an event that stands there, wherever it stands, is one that was accepted.
-/

namespace Lightspeed.Bots

open Lib Harness

variable {rules : Rules} {sha256Hex : String → String} {a b : Board} {s : System}
  {P Q : BotEvent → Prop}

/-- What holds of every event on the board. -/
structure Board.All (P : BotEvent → Prop) (b : Board) : Prop where
  pending : ∀ d ∈ b.view.pending, ∀ event ∈ d.events, P event
  buffers : ∀ buffer ∈ b.view.buffers, ∀ event ∈ buffer.events, P event
  lanes : ∀ l ∈ b.view.lanes, ∀ event ∈ l.delivery.events, P event
  holds : ∀ h ∈ b.holds, ∀ event ∈ h.delivery.events, P event
  asides : ∀ d ∈ b.asides, ∀ event ∈ d.events, P event

theorem Board.All.mono (h : b.All P) (himp : ∀ event, P event → Q event) : b.All Q where
  pending d hd event hmem := himp event (h.pending d hd event hmem)
  buffers buffer hbuffer event hmem := himp event (h.buffers buffer hbuffer event hmem)
  lanes l hl event hmem := himp event (h.lanes l hl event hmem)
  holds l hl event hmem := himp event (h.holds l hl event hmem)
  asides d hd event hmem := himp event (h.asides d hd event hmem)

/-- What holds of every event on the board holds of the board after a move, when it holds of what the move
accepts. -/
theorem Board.All.move (hmove : Move rules a b) (ha : a.All P)
    (haccepted : ∀ event, .accepted event ∈ b.log → P event) : b.All P := by
  have hall : a.Everywhere (fun d => ∀ event ∈ d.events, P event) fun buffer =>
      ∀ event ∈ buffer.events, P event := ⟨ha.pending, ha.buffers, ha.lanes, ha.holds, ha.asides⟩
  have hone : ∀ {event e}, .accepted event ∈ b.log → e ∈ [event] → P e := by
    intro event e hlog he
    rw [List.mem_singleton.mp he]
    exact haccepted event hlog
  have hkept := hall.move hmove (fun d d' hcore hd => by rwa [events_eq_of_core hcore])
    (fun event hlog _ e he => hone hlog he)
    (fun event buffer hlog _ hevents _ e he => hone hlog (hevents ▸ he))
    (fun event buffer joined hlog hevents _ hbuffer e he => by
      rw [hevents] at he
      exact (List.mem_append.mp he).elim (hbuffer e) (hone hlog))
    (fun buffer delivery hevents _ hbuffer => by rwa [hevents])
  exact ⟨hkept.pending, hkept.buffers, hkept.lanes, hkept.holds, hkept.asides⟩

/-- What happened stays in the log. -/
theorem Move.log_subset (hmove : Move rules a b) : ∀ obs ∈ a.log, obs ∈ b.log := by
  intro obs hmem
  cases hmove <;> first | exact hmem | exact List.mem_append_left _ hmem

/-- Every event on the board was accepted. -/
def Board.Traced (b : Board) : Prop := b.All fun event => .accepted event ∈ b.log

theorem Board.Traced.move (hmove : Move rules a b) (ha : a.Traced) : b.Traced := by
  have hkept : a.All fun event => .accepted event ∈ b.log :=
    Board.All.mono ha fun event hmem => hmove.log_subset _ hmem
  exact hkept.move hmove fun event hmem => hmem

theorem initial_traced (h : System.Initial s) : s.board.Traced := by
  obtain ⟨-, hpending, hbuffers, hlanes, hholds, hasides⟩ := initial_everywhere h
  exact ⟨hpending, hbuffers, hlanes, hholds, hasides⟩

/-- Every event on the board of a controller was accepted. -/
theorem reaches_traced (h : (System.controller sha256Hex).Reaches s) : s.board.Traced :=
  reaches_board (fun _ => initial_traced) (fun _ _ hmove ha => ha.move hmove) h

end Lightspeed.Bots
