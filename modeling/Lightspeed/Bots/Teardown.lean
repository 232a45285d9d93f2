import Lightspeed.Bots.Conservation
import Lightspeed.Bots.Dedupe

/-!
# What a closing bot archives

A bot that is closed archives what waits for delivery. What a sidecar has taken is in none of the places that
the teardown looks at.
-/

namespace Lightspeed.Bots

open Lib Harness

variable {sha256Hex : String → String} {s : System}

theorem mem_teardownEventIds {s : ControllerState} {eventId : String} :
    eventId ∈ s.teardownEventIds ↔ s.HoldsEvent eventId := by
  unfold ControllerState.teardownEventIds ControllerState.HoldsEvent
  rw [List.mem_eraseDups, List.mem_append, List.mem_append, List.mem_flatMap, List.mem_flatMap,
    List.mem_flatMap, or_assoc]

theorem mem_eventsOf {deliveries : Multiset BotDelivery} {event : BotEvent} :
    event ∈ eventsOf deliveries ↔ ∃ delivery ∈ deliveries, event ∈ delivery.events := by
  unfold eventsOf
  rw [Multiset.mem_bind]
  rfl

/-- What is pending, buffered or in a lane is archived. -/
theorem holds_of_mem_events {event : BotEvent} (h : event ∈ s.board.events) :
    s.state.HoldsEvent event.id ∨ event ∈ eventsOf (asidesOf s.tasks) := by
  unfold Board.events at h
  rw [Multiset.mem_add, Multiset.mem_add, Multiset.mem_add] at h
  rcases h with ((h | h) | h) | h
  · obtain ⟨delivery, hdelivery, hevent⟩ := mem_eventsOf.mp h
    exact .inl (.inl ⟨delivery, hdelivery, List.mem_map_of_mem hevent⟩)
  · obtain ⟨buffer, hbuffer, hevent⟩ := Multiset.mem_bind.mp h
    exact .inl (.inr (.inl ⟨buffer, hbuffer, List.mem_map_of_mem hevent⟩))
  · obtain ⟨delivery, hdelivery, hevent⟩ := mem_eventsOf.mp h
    obtain ⟨hold, hhold, rfl⟩ := Multiset.mem_map.mp hdelivery
    obtain ⟨entry, hentry, rfl⟩ := List.mem_map.mp hhold
    exact .inl (.inr (.inr ⟨entry.2, List.mem_map_of_mem hentry, List.mem_map_of_mem hevent⟩))
  · exact .inr h

def closedBot : System.Input := .botConfig { triageConfig with closed := true }

/-- An event that joins the session's run, and is with a sidecar when the bot is closed. -/
def appendedEvent : BotEvent := { triageEvent with id := "f", seq := 2, whenBusy := some .append }

end Lightspeed.Bots
