import Lightspeed.Bots.Board

/-!
# Routes

The session ids that a routed base goes through lead back to it, so that a session id belongs to one
logical target: the main session, or one base. The ids that admission computes are such bases.
-/

namespace Lightspeed.Bots

open Lib Harness

variable {botId : BotId} {base sessionId : String} {generation : Nat}

/-! ## The generation suffix -/

theorem rsplitOnceGeneration_eq_none {chars : List Char} (h : '-' ∉ chars) :
    rsplitOnceGeneration chars = none := by
  induction chars with
  | nil => rfl
  | cons ch rest ih =>
    obtain ⟨hch, hrest⟩ := not_or.mp (List.mem_cons.not.mp h)
    have hhead : List.isPrefixOf? ['-', 'g'] (ch :: rest) = none := by
      rw [List.isPrefixOf?, if_neg (by simpa using hch)]
    rw [rsplitOnceGeneration, ih hrest, hhead]
    rfl

/-- The last generation suffix is the one that no dash follows. -/
theorem rsplitOnceGeneration_append {front digits : List Char} (h : '-' ∉ digits) :
    rsplitOnceGeneration (front ++ '-' :: 'g' :: digits) = some (front, digits) := by
  induction front with
  | nil =>
    have hnone : rsplitOnceGeneration ('g' :: digits) = none :=
      rsplitOnceGeneration_eq_none (by simp [h])
    rw [List.nil_append, rsplitOnceGeneration, hnone]
    rfl
  | cons ch front ih => rw [List.cons_append, rsplitOnceGeneration, ih]

theorem toString_generation_toList (generation : Nat) :
    (toString generation).toList = Nat.toDigits 10 generation := Nat.toList_repr

/-- A generation of a base leads back to it. -/
theorem routedSessionBase_generationId (h : routedSessionBase base = base) (generation : Nat) :
    routedSessionBase (routedSessionGenerationId base generation) = base := by
  unfold routedSessionGenerationId
  split_ifs with hgeneration
  · exact h
  · have hdigit : ∀ ch ∈ Nat.toDigits 10 generation, ch.isDigit = true := fun ch hch =>
      Nat.isDigit_of_mem_toDigits (by decide) (by decide) hch
    have hdash : '-' ∉ Nat.toDigits 10 generation := fun hmem =>
      absurd (hdigit '-' hmem) (by decide)
    have hsplit : rsplitOnceGeneration (base ++ "-g" ++ toString generation).toList =
        some (base.toList, Nat.toDigits 10 generation) := by
      rw [String.toList_append, String.toList_append, toString_generation_toList,
        List.append_assoc]
      exact rsplitOnceGeneration_append hdash
    rw [routedSessionBase, hsplit]
    dsimp only
    rw [if_pos ⟨Nat.toDigits_ne_nil, List.all_eq_true.mpr hdigit⟩, String.ofList_toList]

/-! ## Logical targets -/

/-- Whether a delivery goes to the main session, or by a route that admission computes. -/
def BotDelivery.RoutedFor (botId : BotId) (delivery : BotDelivery) : Prop :=
  ∀ session ∈ delivery.session, session.RoutedFor botId

end Lightspeed.Bots
