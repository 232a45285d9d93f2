import Lightspeed.Bots.Emissions

/-!
# Which bot a session belongs to

A session id is the prefix, the bot's name, and a tail that is empty, a generation suffix, or begins
with a colon. A name holds no colon but may hold dashes, so the only ambiguity is between a generation
suffix and the end of a longer name: a bot takes every session of a bot whose name extends its own by
`-g`, and two bots share a main session when one is named like a generation of the other.
-/

namespace Lightspeed.Bots

open Harness

/-! ## The ids of a bot's sessions -/

section

variable (sha256Hex : String → String)

/-- The session ids that are generated for a bot; a generation is a 32-bit number. -/
inductive GeneratedFor (botId : BotId) : String → Prop
  | main (generation : Nat) (h : generation < 2 ^ 32) :
    GeneratedFor botId (botMainSessionId botId generation)
  | keyed (key : String) (generation : Nat) (h : generation < 2 ^ 32) :
    GeneratedFor botId
      (routedSessionGenerationId (botKeyedSessionId sha256Hex botId key) generation)
  | perEvent (eventId : String) (generation : Nat) (h : generation < 2 ^ 32) :
    GeneratedFor botId
      (routedSessionGenerationId (botPerEventSessionId sha256Hex botId eventId) generation)

end

variable {sha256Hex : String → String} {a b botId : BotId} {sessionId : String}

/-- The characters that a generation adds to a main session's id. -/
def generationSuffix (generation : Nat) : List Char := ['-', 'g'] ++ Nat.toDigits 10 generation

/-- What may follow the bot's name in a session id. -/
inductive SessionTail : List Char → Prop
  | bare : SessionTail []
  | generation (generation : Nat) (one_lt : 1 < generation) (bounded : generation < 2 ^ 32) :
    SessionTail (generationSuffix generation)
  | routed (rest : List Char) : SessionTail (':' :: rest)

/-- The characters that every session id of a bot begins with. -/
def sessionBase (botId : BotId) : List Char := botSessionPrefix.toList ++ botId.value.toList

theorem botMainSessionId_toList (generation : Nat) :
    (botMainSessionId botId generation).toList =
      sessionBase botId ++ if generation ≤ 1 then [] else generationSuffix generation := by
  unfold botMainSessionId sessionBase generationSuffix
  split_ifs with h
  · simp
  · have hdigits : (toString generation).toList = Nat.toDigits 10 generation := Nat.toList_repr
    have hdash : "-g".toList = ['-', 'g'] := rfl
    simp only [String.toList_append, hdigits, hdash, List.append_assoc]

theorem routedSessionGenerationId_toList (base : String) (generation : Nat) :
    ∃ tail, (routedSessionGenerationId base generation).toList = base.toList ++ tail := by
  unfold routedSessionGenerationId
  split_ifs
  · exact ⟨[], by simp⟩
  · exact ⟨"-g".toList ++ (toString generation).toList, by simp⟩

/-- Every generated session id is the bot's base with such a tail. -/
theorem GeneratedFor.tail (h : GeneratedFor sha256Hex botId sessionId) :
    ∃ tail, sessionId.toList = sessionBase botId ++ tail ∧ SessionTail tail := by
  cases h with
  | main generation hbound =>
    refine ⟨_, botMainSessionId_toList generation, ?_⟩
    split_ifs with hone
    · exact .bare
    · exact .generation generation (not_le.mp hone) hbound
  | keyed key generation hbound =>
    obtain ⟨tail, htail⟩ := routedSessionGenerationId_toList
      (botKeyedSessionId sha256Hex botId key) generation
    have hcolon : ":k-".toList = [':', 'k', '-'] := rfl
    rw [htail]
    simp only [botKeyedSessionId, String.toList_append, hcolon, List.append_assoc,
      List.cons_append, List.nil_append]
    exact ⟨_, (List.append_assoc ..).symm, .routed _⟩
  | perEvent eventId generation hbound =>
    obtain ⟨tail, htail⟩ := routedSessionGenerationId_toList
      (botPerEventSessionId sha256Hex botId eventId) generation
    have hcolon : ":e-".toList = [':', 'e', '-'] := rfl
    rw [htail]
    simp only [botPerEventSessionId, String.toList_append, hcolon, List.append_assoc,
      List.cons_append, List.nil_append]
    exact ⟨_, (List.append_assoc ..).symm, .routed _⟩

/-- A session is taken for a bot's when what follows the bot's base is nothing, or begins with a
colon or with a generation suffix. -/
theorem isBotSession_iff : isBotSession botId sessionId = true ↔
    ∃ rest, sessionId.toList = sessionBase botId ++ rest ∧
      (rest = [] ∨ [':'] <+: rest ∨ ['-', 'g'] <+: rest) := by
  have hbase : (botSessionPrefix ++ botId.value).toList = sessionBase botId := by
    rw [sessionBase, String.toList_append]
  unfold isBotSession
  simp only [Bool.or_eq_true, beq_iff_eq, hbase]
  constructor
  · rintro (rfl | h)
    · exact ⟨[], by rw [hbase, List.append_nil], .inl rfl⟩
    · split at h
      next rest hrest =>
        rw [Bool.or_eq_true, List.isPrefixOf_iff_prefix, List.isPrefixOf_iff_prefix] at h
        exact ⟨rest, (List.isPrefixOf?_eq_some_iff_append_eq.mp hrest).symm, .inr h⟩
      · cases h
  · rintro ⟨rest, hrest, rfl | h⟩
    · refine .inl (String.toList_inj.mp ?_)
      rw [hrest, hbase, List.append_nil]
    · have hsome : List.isPrefixOf? (sessionBase botId) sessionId.toList = some rest :=
        List.isPrefixOf?_eq_some_iff_append_eq.mpr hrest.symm
      rw [hsome]
      refine .inr ?_
      rw [Bool.or_eq_true, List.isPrefixOf_iff_prefix, List.isPrefixOf_iff_prefix]
      exact h

/-- A bot owns the sessions that are generated for it. -/
theorem isBotSession_of_generatedFor (h : GeneratedFor sha256Hex botId sessionId) :
    isBotSession botId sessionId = true := by
  obtain ⟨tail, hid, htail⟩ := h.tail
  refine isBotSession_iff.mpr ⟨tail, hid, ?_⟩
  cases htail with
  | bare => exact .inl rfl
  | generation generation => exact .inr (.inr (List.prefix_append _ _))
  | routed rest => exact .inr (.inl (List.prefix_append [':'] rest))

/-! ## Two bots -/

/-- No session of `b` reads as one of `a`: the name of `b` does not extend the name of `a` by `-g`, and
`a` is not named like a later generation of `b`. -/
def Unambiguous (a b : BotId) : Prop :=
  ¬ a.value.toList ++ ['-', 'g'] <+: b.value.toList ∧
    ∀ generation, 1 < generation → generation < 2 ^ 32 →
      a.value.toList ≠ b.value.toList ++ generationSuffix generation

/-- A generation suffix holds digits after its first two characters. -/
theorem mem_generationSuffix {generation : Nat} {ch : Char}
    (h : ch ∈ 'g' :: Nat.toDigits 10 generation) : ch ≠ '-' ∧ ch ≠ ':' := by
  rcases List.mem_cons.mp h with rfl | h
  · decide
  · have hdigit : ch.isDigit = true := Nat.isDigit_of_mem_toDigits (by decide) (by decide) h
    refine ⟨?_, ?_⟩ <;>
    · rintro rfl
      exact absurd hdigit (by decide)

/-- A longer name of `a` that reads on into the tail of `b` ends where a generation of `b` does. -/
theorem tail_eq_generationSuffix {u rest tail : List Char} (htail : SessionTail tail)
    (hsplit : tail = u ++ rest) (hu : u ≠ []) (hcolon : ':' ∉ u)
    (hrest : rest = [] ∨ [':'] <+: rest ∨ ['-', 'g'] <+: rest) :
    ∃ generation, 1 < generation ∧ generation < 2 ^ 32 ∧ u = generationSuffix generation := by
  obtain ⟨first, u, rfl⟩ := List.exists_cons_of_ne_nil hu
  cases htail with
  | bare => exact absurd hsplit (by simp)
  | routed tail =>
    obtain ⟨rfl, -⟩ := List.cons.inj hsplit
    exact absurd List.mem_cons_self hcolon
  | generation generation hone hbound =>
    obtain ⟨rfl, hdigits⟩ := List.cons.inj hsplit
    have hdigits : 'g' :: Nat.toDigits 10 generation = u ++ rest := hdigits
    refine ⟨generation, hone, hbound, ?_⟩
    -- What follows is all digits, so it has neither a colon nor a second dash.
    have hmem : ∀ ch ∈ rest, ch ≠ '-' ∧ ch ≠ ':' := by
      intro ch hch
      have hch : ch ∈ 'g' :: Nat.toDigits 10 generation := by
        rw [hdigits]
        exact List.mem_append_right u hch
      exact mem_generationSuffix hch
    rcases hrest with rfl | ⟨rest', rfl⟩ | ⟨rest', rfl⟩
    · rw [List.append_nil] at hdigits
      rw [← hdigits]
      rfl
    · exact absurd rfl (hmem ':' (by simp)).2
    · exact absurd rfl (hmem '-' (by simp)).1

/-- A longer name of `b` that begins where a session of `a` reads on extends the name of `a` by
`-g`. -/
theorem prefix_of_extension {u tail : List Char} (htail : SessionTail tail) (hu : u ≠ [])
    (hcolon : ':' ∉ u)
    (hrest : u ++ tail = [] ∨ [':'] <+: u ++ tail ∨ ['-', 'g'] <+: u ++ tail) :
    ['-', 'g'] <+: u := by
  obtain ⟨first, u, rfl⟩ := List.exists_cons_of_ne_nil hu
  rcases hrest with h | ⟨rest, h⟩ | ⟨rest, h⟩
  · exact absurd h (by simp)
  · obtain ⟨rfl, -⟩ := List.cons.inj h
    exact absurd List.mem_cons_self hcolon
  · obtain ⟨rfl, hsecond⟩ := List.cons.inj h
    have hsecond : 'g' :: rest = u ++ tail := hsecond
    cases u with
    | cons second u =>
      obtain ⟨rfl, -⟩ := List.cons.inj hsecond
      exact ⟨u, rfl⟩
    | nil =>
      -- No tail begins with a `g`.
      cases htail with
      | bare => exact absurd hsecond (by simp)
      | generation generation | routed tail => exact absurd (List.cons.inj hsecond).1 (by decide)

/-- Where the names are not ambiguous, no session of `b` is taken for one of `a`. -/
theorem isBotSession_eq_false (hne : a ≠ b) (h : Unambiguous a b)
    (hb : GeneratedFor sha256Hex b sessionId) : isBotSession a sessionId = false := by
  obtain ⟨tail, hid, htail⟩ := hb.tail
  refine Bool.eq_false_iff.mpr fun howned => ?_
  obtain ⟨rest, hid', hrest⟩ := isBotSession_iff.mp howned
  have hsplit : b.value.toList ++ tail = a.value.toList ++ rest := by
    rw [hid, sessionBase, sessionBase, List.append_assoc, List.append_assoc] at hid'
    exact List.append_cancel_left hid'
  rcases List.append_eq_append_iff.mp hsplit with ⟨u, ha, htailEq⟩ | ⟨u, hb, hrestEq⟩
  · have hu : u ≠ [] := by
      rintro rfl
      rw [List.append_nil] at ha
      exact hne (BotId.ext_toList ha)
    have hcolon : ':' ∉ u := fun hmem =>
      a.colon_not_mem (ha ▸ List.mem_append_right _ hmem)
    obtain ⟨generation, hone, hbound, rfl⟩ :=
      tail_eq_generationSuffix htail htailEq hu hcolon hrest
    exact h.2 generation hone hbound ha
  · have hu : u ≠ [] := by
      rintro rfl
      rw [List.append_nil] at hb
      exact hne (BotId.ext_toList hb).symm
    have hcolon : ':' ∉ u := fun hmem =>
      b.colon_not_mem (hb ▸ List.mem_append_right _ hmem)
    subst hrestEq
    obtain ⟨rest, rfl⟩ := prefix_of_extension htail hu hcolon hrest
    exact h.1 ⟨rest, by rw [hb, List.append_assoc]⟩

/-- Where the names are ambiguous, a main session of `b` is taken for one of `a`. -/
theorem exists_isBotSession_of_not_unambiguous (h : ¬ Unambiguous a b) :
    ∃ generation < 2 ^ 32, isBotSession a (botMainSessionId b generation) = true := by
  by_cases hfront : a.value.toList ++ ['-', 'g'] <+: b.value.toList
  · obtain ⟨rest, hrest⟩ := hfront
    refine ⟨1, by decide, isBotSession_iff.mpr ⟨['-', 'g'] ++ rest, ?_, ?_⟩⟩
    · rw [botMainSessionId_toList, if_pos le_rfl, List.append_nil, sessionBase, ← hrest]
      simp [sessionBase]
    · exact .inr (.inr (List.prefix_append _ _))
  · obtain ⟨generation, hone, hbound, ha⟩ : ∃ generation, 1 < generation ∧ generation < 2 ^ 32 ∧
        a.value.toList = b.value.toList ++ generationSuffix generation := by
      by_contra hnone
      refine h ⟨hfront, fun generation hone hbound ha => ?_⟩
      exact hnone ⟨generation, hone, hbound, ha⟩
    refine ⟨generation, hbound, isBotSession_iff.mpr ⟨[], ?_, .inl rfl⟩⟩
    rw [botMainSessionId_toList, if_neg (not_le.mpr hone), sessionBase, sessionBase, ha]
    simp

/-- What keeps `b` out of the sessions of `a`. -/
structure Apart (sha256Hex : String → String) (a b : BotId) : Prop where
  /-- A bot owns its own sessions. -/
  own : ∀ sessionId, GeneratedFor sha256Hex a sessionId → isBotSession a sessionId = true
  /-- It owns none of the other's. -/
  foreign : ∀ sessionId, GeneratedFor sha256Hex b sessionId → isBotSession a sessionId = false
  /-- No session id is generated for both. -/
  distinct : ∀ sessionId, GeneratedFor sha256Hex a sessionId → ¬ GeneratedFor sha256Hex b sessionId
  /-- Whatever a session of the other emits is dropped. -/
  dropped : ∀ config mainSessionId envelope universeId sessionId logSeq, config.botId = a →
    envelope.producer = .session universeId sessionId logSeq →
    GeneratedFor sha256Hex b sessionId →
    ∃ message, classifyEmission config mainSessionId envelope = .foreign message

/-- Two bots are kept apart exactly when their names are not ambiguous. -/
theorem sessions_apart_iff (hne : a ≠ b) : Apart sha256Hex a b ↔ Unambiguous a b := by
  constructor
  · intro hapart
    by_contra h
    obtain ⟨generation, hbound, howned⟩ := exists_isBotSession_of_not_unambiguous h
    exact absurd (hapart.foreign _ (.main generation hbound)) (by simp [howned])
  · intro h
    have hforeign : ∀ sessionId, GeneratedFor sha256Hex b sessionId →
        isBotSession a sessionId = false := fun sessionId => isBotSession_eq_false hne h
    refine ⟨fun sessionId => isBotSession_of_generatedFor, hforeign, ?_, ?_⟩
    · intro sessionId ha hb
      exact absurd (isBotSession_of_generatedFor ha) (by simp [hforeign sessionId hb])
    · rintro config mainSessionId envelope universeId sessionId logSeq rfl hproducer hb
      refine classifyEmission_foreign_iff.mpr ?_
      exact (producerSession_session hproducer).mpr (.inr (hforeign sessionId hb))

/-- Two bots whose names begin differently. -/
theorem sessions_apart_iff_triage_other :
    Apart id triage ⟨"other", by decide +kernel⟩ ↔
      Unambiguous triage ⟨"other", by decide +kernel⟩ :=
  sessions_apart_iff (by decide +kernel)

/-- The bot `a` takes the main session of `a-garden` for its own, and acts on the end of a run there;
and its second generation is the main session of the bot `a-g2`. -/
theorem sessions_shared :
    isBotSession botA
        (botMainSessionId ⟨"a-garden", by decide +kernel⟩ 1) = true ∧
      classifyEmission
          { universeId := "universe", botId := botA, profileId := "profile" }
          (botMainSessionId botA 1)
          ⟨"emission", .session "universe" (botMainSessionId ⟨"a-garden", by decide +kernel⟩ 1) 1,
            .runTerminal "token" 1 .completed none⟩ =
        .terminal "bot:v1:a-garden" "run_1" "token" .completed none ∧
      botMainSessionId botA 2 =
        botMainSessionId ⟨"a-g2", by decide +kernel⟩ 1 := by
  decide +kernel

end Lightspeed.Bots
