import PrismAgent.Application.ActionEventHandler
import PrismAgent.Application.SubAgentCoordinator

/-!
# Deliveries

`RecursionRunner.run` and the function entry hand an envelope to the handler of
its event class. A run is a sequence of such deliveries.
-/

namespace PrismAgent

open Effect

/-- A delivered envelope and the inline budget of the handler that takes it. -/
structure Message where
  envelope : EventEnvelope
  budget : ℕ := ActionEventHandler.INLINE_ACTION_CHAIN_BUDGET

namespace RecursionRunner

def dispatch (registries : Registries) (message : Message) : App Unit :=
  match message.envelope.event.kind with
  | .agentAction _ _ => ActionEventHandler.handle message.budget message.envelope
  | .subagentTask _ _ => SubAgentCoordinator.handle registries message.envelope
  | .subagentCompleted _ _ _ => SubAgentCoordinator.handle registries message.envelope
  | _ => DomainEventHandler.handle registries message.envelope

/-- `_event_run_id`: the run that an event is accounted to. -/
def eventRunId (event : RuntimeEvent) : Option String :=
  match event.kind with
  | .agentAction planId _ => some planId
  | _ =>
      match firstText event.payload AGENT_RUN_ID_KEYS with
      | some runId => some runId
      | none =>
          let queuePointer := (event.payload.lookup "queue_pointer").bind Json.asObj?
          match queuePointer.bind fun pointer => firstText pointer AGENT_RUN_ID_KEYS with
          | some runId => some runId
          | none =>
              match event.correlationId with
              | some id => if id = "" then event.idempotencyKey else some id
              | none => event.idempotencyKey

/-- An event beyond the depth limit fails the run that it is accounted to. -/
def recordMaxDepthFailure (event : RuntimeEvent) : App Unit := do
  trace event "recursion.max_depth" none
  match eventRunId event with
  | some runId =>
      sync (.runFailed event.workspaceId runId "Stopped recursive processing at max depth.")
  | none => pure ()

end RecursionRunner

section Deliver

variable {σ : Type} [StateStore σ] (env : Env)

/-- The world after one delivery. -/
def deliver (w : World σ) (message : Message) : World σ :=
  (env.sem.exec (RecursionRunner.dispatch env.registries message) w).2

/-- The world after a sequence of deliveries. -/
def deliverAll (w : World σ) (messages : List Message) : World σ :=
  messages.foldl (deliver env) w

@[simp] theorem deliverAll_nil (w : World σ) : deliverAll env w [] = w := rfl

@[simp] theorem deliverAll_cons (w : World σ) (message : Message) (messages : List Message) :
    deliverAll env w (message :: messages) =
      deliverAll env (deliver env w message) messages := rfl

end Deliver

end PrismAgent
