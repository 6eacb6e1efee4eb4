import Mathlib.Data.Finset.Insert
import Mathlib.Data.Prod.Lex
import PrismAgent.Application.RecursionRunner
import PrismAgent.Effect.Loop

/-!
# The local runner

`RecursionRunner.run` over a `MemoryQueue`: it takes one message after the other from the
queue, hands the event to the handler of its class and acks or fails the message. The
handlers are parameters: a call changes the world, enqueues messages and returns or raises.
-/

namespace PrismAgent

open Effect

/-- A message under the id that it got when it was enqueued. -/
structure QueueMessage where
  messageId : String
  envelope : EventEnvelope

structure MemoryQueue where
  messages : List QueueMessage := []
  failed : List (QueueMessage × String) := []
  acked : List String := []

namespace MemoryQueue

variable (queue : MemoryQueue) (message : QueueMessage)

def enqueue : MemoryQueue := { queue with messages := queue.messages ++ [message] }

def dequeue : Option (QueueMessage × MemoryQueue) :=
  match queue.messages with
  | [] => none
  | message :: messages => some (message, { queue with messages := messages })

def ack : MemoryQueue := { queue with acked := queue.acked ++ [message.messageId] }

def fail (reason : String) : MemoryQueue :=
  { queue with failed := queue.failed ++ [(message, reason)] }

end MemoryQueue

/-- What a call of a handler did: the world after it, the messages it enqueued and what it
raised. -/
structure Handled (W : Type*) where
  world : W
  enqueued : List QueueMessage
  raised : Option Exc

/-- What a runner is given: its handlers, its services and its limit. -/
structure RunnerServices (W : Type*) where
  actionEventHandler : EventEnvelope → W → Handled W
  domainEventHandler : EventEnvelope → W → Handled W
  subagentCoordinator : Option (EventEnvelope → W → Handled W)
  /-- `AgentRunSync.record_run_failed`, by workspace, run and message. -/
  recordRunFailed : Option (String → String → String → W → W)
  appendTraceEvent : TraceEvent → W → W
  maxRecursionDepth : ℕ

/-- What became of a message. -/
inductive Outcome
  | maxDepthExceeded
  | duplicate
  | handled (raised : Option Exc)

/-- A message that was taken from the queue, what became of it and what was enqueued
meanwhile. -/
structure Round where
  message : QueueMessage
  outcome : Outcome
  enqueued : List QueueMessage

/-- The state of the loop. -/
structure RunnerState (W : Type*) where
  queue : MemoryQueue
  seenEventIds : Finset String
  processed : ℕ
  world : W

namespace RunnerServices

variable {W : Type*} (services : RunnerServices W)

def traceOf (event : RuntimeEvent) (eventName : String) : TraceEvent :=
  { eventName := eventName
    workspaceId := event.workspaceId
    projectId := event.projectId }

def recordMaxDepthFailure (event : RuntimeEvent) (world : W) : W :=
  let traced := services.appendTraceEvent (traceOf event "recursion.max_depth") world
  match services.recordRunFailed, RecursionRunner.eventRunId event with
  | some record, some runId =>
      record event.workspaceId runId "Stopped recursive processing at max depth." traced
  | _, _ => traced

/-- The call of the handler of the event's class. -/
def dispatch (envelope : EventEnvelope) (world : W) : Handled W :=
  match envelope.event.kind with
  | .agentAction _ _ => services.actionEventHandler envelope world
  | .subagentTask _ _ | .subagentCompleted _ _ _ =>
      match services.subagentCoordinator with
      | some handle => handle envelope world
      | none =>
          { world := world
            enqueued := []
            raised := some (.external "RuntimeError" "SubAgentCoordinator is not configured.") }
  | _ => services.domainEventHandler envelope world

def exceedsMaxDepth (processed : ℕ) (event : RuntimeEvent) : Bool :=
  services.maxRecursionDepth ≤ processed || services.maxRecursionDepth < event.causality.depth

/-- The message is acked, or failed with what its handler raised. -/
def settle (handled : Handled W) (message : QueueMessage) (queue : MemoryQueue) :
    MemoryQueue × W :=
  let filled := handled.enqueued.foldl MemoryQueue.enqueue queue
  match handled.raised with
  | none => (filled.ack message, handled.world)
  | some exc => (filled.fail message exc.toStr,
      services.appendTraceEvent (traceOf message.envelope.event "event.failed") handled.world)

/-- One round of the loop. -/
def step (s : RunnerState W) : Option (Round × RunnerState W) :=
  match s.queue.dequeue with
  | none => none
  | some (message, queue) =>
      let event := message.envelope.event
      if services.exceedsMaxDepth s.processed event then
        some (⟨message, .maxDepthExceeded, []⟩,
          { s with
            queue := queue.fail message "max_recursion_depth_exceeded"
            world := services.recordMaxDepthFailure event s.world })
      else if event.eventId ∈ s.seenEventIds then
        some (⟨message, .duplicate, []⟩,
          { s with
            queue := queue.ack message
            world := services.appendTraceEvent (traceOf event "event.duplicate") s.world })
      else
        let handled := services.dispatch message.envelope s.world
        let (queue, world) := services.settle handled message queue
        some (⟨message, .handled handled.raised, handled.enqueued⟩,
          { queue := queue
            seenEventIds := insert event.eventId s.seenEventIds
            processed := s.processed + 1
            world := world })

variable {services} {s : RunnerState W}

/-- A round takes the first message: one beyond the limit fails, one seen before is acked,
any other is handled. -/
theorem step_cases {l : Round} {t : RunnerState W} (h : services.step s = some (l, t)) :
    ∃ message messages, s.queue.messages = message :: messages ∧ l.message = message ∧
      ((services.exceedsMaxDepth s.processed message.envelope.event = true ∧
          l.outcome = .maxDepthExceeded ∧ l.enqueued = [] ∧ t.queue.messages = messages ∧
          t.queue.acked = s.queue.acked ∧
          t.queue.failed = s.queue.failed ++ [(message, "max_recursion_depth_exceeded")] ∧
          t.seenEventIds = s.seenEventIds ∧ t.processed = s.processed) ∨
        (message.envelope.eventId ∈ s.seenEventIds ∧
          l.outcome = .duplicate ∧ l.enqueued = [] ∧ t.queue.messages = messages ∧
          t.queue.acked = s.queue.acked ++ [message.messageId] ∧
          t.queue.failed = s.queue.failed ∧
          t.seenEventIds = s.seenEventIds ∧ t.processed = s.processed) ∨
        (services.exceedsMaxDepth s.processed message.envelope.event = false ∧
          message.envelope.eventId ∉ s.seenEventIds ∧
          ∃ raised, l.outcome = .handled raised ∧ t.queue.messages = messages ++ l.enqueued ∧
            (match raised with
              | none => t.queue.acked = s.queue.acked ++ [message.messageId] ∧
                  t.queue.failed = s.queue.failed
              | some exc => t.queue.acked = s.queue.acked ∧
                  t.queue.failed = s.queue.failed ++ [(message, exc.toStr)]) ∧
            t.seenEventIds = insert message.envelope.eventId s.seenEventIds ∧
            t.processed = s.processed + 1)) := by
  have hfill : ∀ (enqueued : List QueueMessage) (queue : MemoryQueue),
      enqueued.foldl MemoryQueue.enqueue queue =
        { queue with messages := queue.messages ++ enqueued } := by
    intro enqueued
    induction enqueued with
    | nil => simp
    | cons message enqueued ih => simp [ih, MemoryQueue.enqueue]
  unfold step at h
  cases hmessages : s.queue.messages with
  | nil =>
      simp only [MemoryQueue.dequeue, hmessages, reduceCtorEq] at h
  | cons message messages =>
      refine ⟨message, messages, rfl, ?_⟩
      simp only [MemoryQueue.dequeue, hmessages] at h
      split at h
      next hdeep =>
        cases h
        exact ⟨rfl, .inl ⟨hdeep, rfl, rfl, rfl, rfl, rfl, rfl, rfl⟩⟩
      next hdeep =>
        split at h
        next hseen =>
          cases h
          exact ⟨rfl, .inr (.inl ⟨hseen, rfl, rfl, rfl, rfl, rfl, rfl, rfl⟩)⟩
        next hseen =>
          cases h
          refine ⟨rfl, .inr (.inr ⟨by simpa using hdeep, hseen, _, rfl, ?_⟩)⟩
          unfold settle
          rw [hfill]
          cases (services.dispatch message.envelope s.world).raised with
          | none => exact ⟨rfl, ⟨rfl, rfl⟩, rfl, rfl⟩
          | some exc => exact ⟨rfl, ⟨rfl, rfl⟩, rfl, rfl⟩

variable (services)

/-- How many handler calls are left, and how many messages. -/
def remaining (s : RunnerState W) : ℕ × ℕ :=
  (services.maxRecursionDepth - s.processed, s.queue.messages.length)

/-- The loop of `run`: a handled message costs one of the calls that are left, any other
message leaves the queue. -/
def loop : Loop (RunnerState W) Round (ℕ × ℕ) where
  step := services.step
  measure := services.remaining
  decreases s l t h := by
    obtain ⟨message, messages, hmessages, -, hcases⟩ := step_cases h
    unfold remaining
    rcases hcases with ⟨-, -, -, hrest, -, -, -, hprocessed⟩ |
      ⟨-, -, -, hrest, -, -, -, hprocessed⟩ | ⟨hdepth, -, -, -, -, -, -, hprocessed⟩
    · rw [hprocessed, hrest, hmessages]
      exact Prod.Lex.right _ (Nat.lt_succ_self _)
    · rw [hprocessed, hrest, hmessages]
      exact Prod.Lex.right _ (Nat.lt_succ_self _)
    · simp only [exceedsMaxDepth, Bool.or_eq_false_iff, decide_eq_false_iff_not, not_le] at hdepth
      have hless : services.maxRecursionDepth - (s.processed + 1) <
          services.maxRecursionDepth - s.processed := by omega
      rw [hprocessed]
      exact Prod.Lex.left _ _ hless

/-- A call of `run`: the queue and the world it finds, and the message of its seed. -/
structure RunCall (W : Type*) where
  queue : MemoryQueue
  world : W
  seed : QueueMessage

/-- Where the loop starts. -/
def RunCall.start (call : RunCall W) (seen : Finset String) : RunnerState W :=
  { queue := call.queue.enqueue call.seed
    seenEventIds := seen
    processed := 0
    world := call.world }

/-- `RecursionRunner.run` on a runner that has seen these events. -/
def run (seen : Finset String) (call : RunCall W) : List Round × RunnerState W :=
  services.loop.run (call.start seen)

end RunnerServices

end PrismAgent
