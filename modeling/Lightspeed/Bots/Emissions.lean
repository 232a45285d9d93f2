import Lightspeed.Bots.Data

/-!
# What an emission means to a controller

A controller receives the pushed invocations and the ends of runs of its bot's sessions. An emission
of another universe, or of a session that is not the bot's, is dropped with a note.
-/

namespace Lightspeed.Bots

open Harness

/-! ## The bot tools -/

/-- How the controller answers a tool: from the session log, or with a reply. -/
inductive BotToolCompletion where
  | acceptedPull
  | joined
  deriving DecidableEq

structure BotToolSpec where
  toolId : String
  completion : BotToolCompletion

def botEventResolveToolId : String := "lightspeed.bots.event.resolve.v1"

def botToolSpecs : List BotToolSpec :=
  [⟨botEventResolveToolId, .acceptedPull⟩,
   ⟨"lightspeed.bots.status.v1", .joined⟩,
   ⟨"lightspeed.bots.trigger.put.v1", .joined⟩,
   ⟨"lightspeed.bots.trigger.delete.v1", .joined⟩,
   ⟨"lightspeed.bots.trigger.list.v1", .joined⟩,
   ⟨"lightspeed.bots.filter.test.v1", .joined⟩,
   ⟨"lightspeed.bots.event.list.v1", .joined⟩,
   ⟨"lightspeed.bots.event.read.v1", .joined⟩,
   ⟨"lightspeed.bots.brief.put.v1", .joined⟩,
   ⟨"lightspeed.bots.emit.v1", .joined⟩]

/-- Tool ids that the controller answers via pushed invocations. -/
def isPushedTool (toolId : String) : Bool :=
  botToolSpecs.any fun spec => spec.toolId == toolId && spec.completion != .acceptedPull

/-! ## Classification -/

/-- The session that an emission stands for, or why it is not this bot's. A workflow producer stands
for the main session. -/
def producerSession (config : BotControllerConfig) (mainSessionId : String)
    (envelope : EmissionEnvelope) : Except String String :=
  match envelope.producer with
  | .session universeId sessionId _ =>
    if universeId != config.universeId || !isBotSession config.botId sessionId then
      .error ("emission " ++ envelope.emissionId ++
        " does not belong to this bot's sessions (producer " ++ universeId ++ "/" ++ sessionId ++ ")")
    else .ok sessionId
  | .workflow universeId workflowId =>
    if universeId != config.universeId then
      .error ("emission " ++ envelope.emissionId ++
        " comes from another universe (producer workflow " ++ workflowId ++ ")")
    else .ok mainSessionId

/-- Which emissions the controller acts on. -/
def classifyEmission (config : BotControllerConfig) (mainSessionId : String)
    (envelope : EmissionEnvelope) : EmissionDisposition :=
  match producerSession config mainSessionId envelope with
  | .error message => .foreign message
  | .ok producerSession =>
    match envelope.body with
    | .toolInvocation invocation holderWorkflowId =>
      if !isPushedTool invocation.workflowToolId then .ignore
      else .invocation invocation.sessionId invocation holderWorkflowId
    | .runTerminal token runId status failureMessageRef =>
      .terminal producerSession ("run_" ++ toString runId) token status failureMessageRef
    | .sourceResolution .. | .invocationCancellation .. => .ignore

variable {config : BotControllerConfig} {mainSessionId : String} {envelope : EmissionEnvelope}

/-- What is not dropped comes from the producer's session, or from a workflow of the universe. -/
theorem classifyEmission_foreign_iff :
    (∃ message, classifyEmission config mainSessionId envelope = .foreign message) ↔
      ∃ message, producerSession config mainSessionId envelope = .error message := by
  unfold classifyEmission
  constructor
  · rintro ⟨message, h⟩
    split at h
    next m hm => exact ⟨m, hm⟩
    · split at h
      · split at h <;> cases h
      · cases h
      · cases h
      · cases h
  · rintro ⟨message, h⟩
    exact ⟨message, by rw [h]⟩

/-- A session's emission is dropped unless the session is the bot's, in the bot's universe. -/
theorem producerSession_session {universeId sessionId : String} {logSeq : Nat}
    (h : envelope.producer = .session universeId sessionId logSeq) :
    (∃ message, producerSession config mainSessionId envelope = .error message) ↔
      universeId ≠ config.universeId ∨ isBotSession config.botId sessionId = false := by
  unfold producerSession
  rw [h]
  by_cases hown : universeId = config.universeId <;>
    cases hbot : isBotSession config.botId sessionId <;> simp [hown, hbot]

end Lightspeed.Bots
