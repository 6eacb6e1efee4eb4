import PrismAgent.Application.ActionEventHandler
import PrismAgent.Effect.Drain

/-!
# Action handlers with an oracle

The validator and the executor are handed to `ActionEventHandler`. `handleWith`
is the handler over any validation, and `Oracle` decides for every attempt of an
action what the validation and the tool answer. The other calls of the store, the
sync and the queue do not raise.

`Oracle.consumer` delivers the action events of the queue, in order and once
each. A handler counts the actions it has chained and never starts anew, so what is left
of its budget is a function of the deliveries so far.
-/

namespace PrismAgent

open Effect

namespace ActionEventHandler

section With

variable (validate : Delivery → App ValidationResult)

/-- Decide on a selected action. -/
def decideActionWith (inline : Bool) (d : Delivery) : App (Option EventEnvelope) := do
  d.trace "action.selected"
  let validation ← validate d
  d.trace "action.pre_validation"
  actOn inline d validation

/-- Skip the action or decide on it. -/
def actOnSelectionWith (inline : Bool) (envelope : EventEnvelope) :
    Selection → App (Option EventEnvelope)
  | .notPending plan action => skipAction inline envelope plan action
  | .duplicate d => do
      d.trace "action.duplicate"
      return none
  | .selected d => decideActionWith validate inline d

/-- One entry of `handle`. -/
def handleOneWith (inline : Bool) (envelope : EventEnvelope) : App (Option EventEnvelope) :=
  match envelope.event.kind with
  | .agentAction planId actionId => do
      let selection ← selectAction envelope planId actionId
      actOnSelectionWith validate inline envelope selection
  | _ => .raise (.typeError "ActionEventHandler can only process AgentActionEvent envelopes.")

/-- Handle a delivery with `budget` inline actions left. -/
def handleWith : ℕ → EventEnvelope → App Unit
  | 0, envelope => do
      let _ ← handleOneWith validate false envelope
      return ()
  | budget + 1, envelope => do
      match ← handleOneWith validate true envelope with
      | none => return ()
      | some next => handleWith budget next

end With

/-- The validation of the source. -/
def validator (d : Delivery) : App ValidationResult :=
  Validator.validateBeforeExecution d.action d.context

theorem handleOneWith_validator : handleOneWith validator = handleOne := by
  funext inline envelope
  unfold handleOneWith handleOne handleAction
  have hselection : actOnSelectionWith validator inline envelope =
      actOnSelection inline envelope := by
    funext selection
    cases selection <;> rfl
  exact hselection ▸ rfl

/-- Over the validation of the source it is the handler of the source. -/
theorem handleWith_validator : handleWith validator = handle := by
  funext budget
  induction budget with
  | zero =>
      funext envelope
      unfold handleWith handle
      rw [handleOneWith_validator]
  | succ budget ih =>
      funext envelope
      unfold handleWith handle
      exact handleOneWith_validator ▸ ih ▸ rfl

end ActionEventHandler

/-- An event for an action. -/
def EventEnvelope.isAction (envelope : EventEnvelope) : Bool :=
  match envelope.event.kind with
  | .agentAction _ _ => true
  | _ => false

/-- What the validation decides and the tool answers, for an action, its context and
the number of the attempt. None of them emits action events. -/
structure Oracle where
  validate : PlannedAction → AgentContext → ℕ → ValidationResult
  execute : PlannedAction → AgentContext → ℕ → Except Exc ToolResult
  validate_emitted : ∀ action context attempt,
    ∀ e ∈ (validate action context attempt).emittedEvents, e.isAction = false
  execute_emitted : ∀ action context attempt result,
    execute action context attempt = .ok result →
      ∀ e ∈ result.emittedEvents, e.isAction = false

namespace Oracle

variable (env : Env) (oracle : Oracle)

/-- The validation that the oracle decides. -/
def validation (d : ActionEventHandler.Delivery) : App ValidationResult :=
  pure (oracle.validate d.action d.context d.envelope.attempt)

/-- Tools are answered by the oracle, the sync accepts every call, and everything
else is as in `env`. -/
def sem : Semantics Call Call.Answer Exc (World MemoryStateStore) := fun call w =>
  match call with
  | .sync call => (.ok (), (env.sem (.sync call) w).2)
  | .executeOne plan action context =>
      let answer := oracle.execute action context (w.attempts action)
      (answer,
        { w with
          tick := w.tick + 1
          executions := w.executions ++
            [{ plan := plan, action := action, context := context
               outcome := Env.outcomeOf answer }] })
  | call => env.sem call w

/-- Deliver the action events of the queue. `budgets` says how many inline actions are
left when a position is delivered. -/
def consumer (budgets : ℕ → World MemoryStateStore → ℕ) :
    Consumer (World MemoryStateStore) EventEnvelope where
  queue := World.queue
  live := EventEnvelope.isAction
  handle position envelope w :=
    ((oracle.sem env).exec (ActionEventHandler.handleWith oracle.validation
      (budgets position w) envelope) w).2

end Oracle

end PrismAgent
