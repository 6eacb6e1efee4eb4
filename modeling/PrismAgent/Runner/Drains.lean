import PrismAgent.Runner.Run

/-!
# The runner drains its queue

Every run of the local runner ends with an empty queue. It hands at most as many events to
handlers as its limit allows, none beyond the depth limit and none twice, and settles every
message that it takes from the queue exactly once.

The calls of the handlers are counted where they happen: `RunnerServices.spied` gives the runner
the same handlers, each of which first writes down the envelope that it is called with.
-/

namespace PrismAgent

open Effect

/-- The event that a handler was called with. -/
def Round.handledEvent (round : Round) : Option RuntimeEvent :=
  match round.outcome with
  | .handled _ => some round.message.envelope.event
  | _ => none

/-- The message, where it was acked. -/
def Round.acked (round : Round) : Option String :=
  match round.outcome with
  | .maxDepthExceeded => none
  | .duplicate => some round.message.messageId
  | .handled none => some round.message.messageId
  | .handled (some _) => none

/-- The message and the reason, where it was failed. -/
def Round.failed (round : Round) : Option (QueueMessage × String) :=
  match round.outcome with
  | .maxDepthExceeded => some (round.message, "max_recursion_depth_exceeded")
  | .duplicate => none
  | .handled none => none
  | .handled (some exc) => some (round.message, exc.toStr)

/-- A message is acked or failed, not both. -/
theorem Round.acked_iff_not_failed (round : Round) : round.acked.isSome ↔ round.failed = none := by
  unfold acked failed
  cases round.outcome with
  | handled raised => cases raised <;> simp
  | _ => simp

namespace RunnerServices

variable {W : Type*} (services : RunnerServices W)

/-- What a run does from one state of the loop to another. -/
structure Runs (s : RunnerState W) (log : List Round) (t : RunnerState W) : Prop where
  taken : log.map (·.message) ++ t.queue.messages = s.queue.messages ++ log.flatMap (·.enqueued)
  acked : t.queue.acked = s.queue.acked ++ log.filterMap Round.acked
  failed : t.queue.failed = s.queue.failed ++ log.filterMap Round.failed
  processed : t.processed = s.processed + (log.filterMap Round.handledEvent).length
  bounded : s.processed ≤ services.maxRecursionDepth → t.processed ≤ services.maxRecursionDepth
  depth : ∀ event ∈ log.filterMap Round.handledEvent,
    event.causality.depth ≤ services.maxRecursionDepth
  seen : ∀ eventId, eventId ∈ t.seenEventIds ↔
    eventId ∈ s.seenEventIds ∨ eventId ∈ (log.filterMap Round.handledEvent).map (·.eventId)
  fresh : ∀ event ∈ log.filterMap Round.handledEvent, event.eventId ∉ s.seenEventIds
  once : ((log.filterMap Round.handledEvent).map (·.eventId)).Nodup

variable {services} {s t u : RunnerState W} {round : Round} {log log' : List Round}

theorem Runs.refl (services : RunnerServices W) (s : RunnerState W) : services.Runs s [] s where
  taken := by simp
  acked := by simp
  failed := by simp
  processed := rfl
  bounded h := h
  depth := List.forall_mem_nil _
  seen _ := by simp
  fresh := List.forall_mem_nil _
  once := List.nodup_nil

theorem Runs.trans (h : services.Runs s log t) (h' : services.Runs t log' u) :
    services.Runs s (log ++ log') u where
  taken := by
    rw [List.map_append, List.append_assoc, h'.taken, ← List.append_assoc, h.taken,
      List.flatMap_append, List.append_assoc]
  acked := by rw [h'.acked, h.acked, List.filterMap_append, List.append_assoc]
  failed := by rw [h'.failed, h.failed, List.filterMap_append, List.append_assoc]
  processed := by
    rw [h'.processed, h.processed, List.filterMap_append, List.length_append, Nat.add_assoc]
  bounded hs := h'.bounded (h.bounded hs)
  depth := by
    rw [List.filterMap_append, List.forall_mem_append]
    exact ⟨h.depth, h'.depth⟩
  seen eventId := by
    rw [h'.seen, h.seen, List.filterMap_append, List.map_append, List.mem_append, or_assoc]
  fresh := by
    rw [List.filterMap_append, List.forall_mem_append]
    exact ⟨h.fresh, fun event hevent hseen => h'.fresh event hevent ((h.seen _).2 (.inl hseen))⟩
  once := by
    rw [List.filterMap_append, List.map_append, List.nodup_append']
    refine ⟨h.once, h'.once, fun eventId hlog hlog' => ?_⟩
    obtain ⟨event, hevent, rfl⟩ := List.mem_map.1 hlog'
    exact h'.fresh event hevent ((h.seen _).2 (.inr hlog))

/-- One round is a run. -/
theorem Runs.of_step (h : services.step s = some (round, t)) : services.Runs s [round] t := by
  obtain ⟨message, messages, hmessages, hmessage, hcases⟩ := step_cases h
  rcases hcases with ⟨-, houtcome, henqueued, hrest, hacked, hfailed, hseen, hprocessed⟩ |
    ⟨-, houtcome, henqueued, hrest, hacked, hfailed, hseen, hprocessed⟩ |
    ⟨hdepth, hnew, raised, houtcome, hrest, hsettled, hseen, hprocessed⟩
  · constructor <;>
      simp [hmessages, hmessage, houtcome, henqueued, hrest, hacked, hfailed, hseen, hprocessed,
        Round.handledEvent, Round.acked, Round.failed]
  · constructor <;>
      simp [hmessages, hmessage, houtcome, henqueued, hrest, hacked, hfailed, hseen, hprocessed,
        Round.handledEvent, Round.acked, Round.failed]
  · have hevent : round.handledEvent = some message.envelope.event := by
      simp [Round.handledEvent, houtcome, hmessage]
    simp only [exceedsMaxDepth, Bool.or_eq_false_iff, decide_eq_false_iff_not, not_le,
      not_lt] at hdepth
    constructor
    case taken => simp [hmessages, hmessage, hrest]
    case acked => cases raised <;> simp [Round.acked, houtcome, hmessage, hsettled]
    case failed => cases raised <;> simp [Round.failed, houtcome, hmessage, hsettled]
    case processed => simp [hevent, hprocessed]
    case bounded => omega
    case depth => simpa [hevent] using hdepth.2
    case seen => simp [hevent, hseen, or_comm, EventEnvelope.eventId]
    case fresh => simpa [hevent, EventEnvelope.eventId] using hnew
    case once => simp [hevent]

/-- Every run is a sequence of rounds. -/
theorem runs_loop (s : RunnerState W) :
    services.Runs s (services.loop.run s).1 (services.loop.run s).2 := by
  refine Loop.run_induction (fun s _ => Runs.refl services s) ?_ s
  intro s round t log u hstep hrun
  exact (Runs.of_step hstep).trans hrun

/-- The loop ends with an empty queue. -/
theorem messages_of_step_eq_none (h : services.step s = none) : s.queue.messages = [] := by
  unfold step MemoryQueue.dequeue at h
  cases hmessages : s.queue.messages with
  | nil => rfl
  | cons message messages =>
      simp only [hmessages] at h
      split at h
      · cases h
      · split at h <;> cases h

end RunnerServices

section Spied

variable {W : Type*}

/-- A handler that writes down the envelopes it is called with, in the second half of the world. -/
def spy (handle : EventEnvelope → W → Handled W) (envelope : EventEnvelope)
    (world : W × List EventEnvelope) : Handled (W × List EventEnvelope) :=
  let handled := handle envelope world.1
  { world := (handled.world, world.2 ++ [envelope])
    enqueued := handled.enqueued
    raised := handled.raised }

/-- A state with the calls of the handlers left out. -/
def RunnerState.unspied (s : RunnerState (W × List EventEnvelope)) : RunnerState W :=
  { queue := s.queue
    seenEventIds := s.seenEventIds
    processed := s.processed
    world := s.world.1 }

namespace RunnerServices

variable (services : RunnerServices W)

/-- The same services, with handlers that write down their calls. -/
def spied : RunnerServices (W × List EventEnvelope) where
  actionEventHandler := spy services.actionEventHandler
  domainEventHandler := spy services.domainEventHandler
  subagentCoordinator := services.subagentCoordinator.map spy
  recordRunFailed := services.recordRunFailed.map fun record workspaceId runId message world =>
    (record workspaceId runId message world.1, world.2)
  appendTraceEvent event world := (services.appendTraceEvent event world.1, world.2)
  maxRecursionDepth := services.maxRecursionDepth

/-- There is a handler for the class of the event; only the coordinator may be missing. -/
def hasHandler (event : RuntimeEvent) : Bool :=
  match event.kind with
  | .subagentTask _ _ | .subagentCompleted _ _ _ => services.subagentCoordinator.isSome
  | _ => true

/-- The envelope that a handler is called with in a round. -/
def handlerCall (round : Round) : Option EventEnvelope :=
  match round.outcome with
  | .handled _ =>
      if services.hasHandler round.message.envelope.event then some round.message.envelope else none
  | _ => none

/-- A dispatched envelope is written down, once, if there is a handler for it. Nothing else
changes. -/
theorem dispatch_spied (envelope : EventEnvelope) (world : W × List EventEnvelope) :
    (services.spied.dispatch envelope world).world =
        ((services.dispatch envelope world.1).world,
          world.2 ++ if services.hasHandler envelope.event then [envelope] else []) ∧
      (services.spied.dispatch envelope world).enqueued =
        (services.dispatch envelope world.1).enqueued ∧
      (services.spied.dispatch envelope world).raised =
        (services.dispatch envelope world.1).raised := by
  unfold dispatch hasHandler
  cases envelope.event.kind with
  | subagentTask nodeId subtask | subagentCompleted nodeId status result =>
      cases hcoordinator : services.subagentCoordinator with
      | none => simp [spied, hcoordinator]
      | some handle => simp [spied, hcoordinator, spy]
  | _ => exact ⟨rfl, rfl, rfl⟩

theorem recordMaxDepthFailure_spied (event : RuntimeEvent) (world : W × List EventEnvelope) :
    services.spied.recordMaxDepthFailure event world =
      (services.recordMaxDepthFailure event world.1, world.2) := by
  unfold recordMaxDepthFailure
  cases hrecord : services.recordRunFailed with
  | none => simp [spied, hrecord]
  | some record =>
      cases RecursionRunner.eventRunId event with
      | none => simp [spied, hrecord]
      | some runId => simp [spied, hrecord]

/-- A settled message leaves the calls as they are after the handler. -/
theorem settle_spied {handled : Handled (W × List EventEnvelope)} {handled' : Handled W}
    (hworld : handled.world.1 = handled'.world) (henqueued : handled.enqueued = handled'.enqueued)
    (hraised : handled.raised = handled'.raised) (message : QueueMessage) (queue : MemoryQueue) :
    services.spied.settle handled message queue =
      ((services.settle handled' message queue).1,
        ((services.settle handled' message queue).2, handled.world.2)) := by
  unfold settle
  rw [henqueued, hraised, ← hworld]
  cases handled'.raised with
  | none => rfl
  | some exc => rfl

/-- A round of the spied services is a round of the services, and writes down the call that is
made in it. -/
theorem step_spied (s : RunnerState (W × List EventEnvelope)) :
    (services.spied.step s).map (Prod.map id RunnerState.unspied) = services.step s.unspied ∧
      ∀ round t, services.spied.step s = some (round, t) →
        t.world.2 = s.world.2 ++ (services.handlerCall round).toList := by
  unfold step RunnerState.unspied
  dsimp only
  cases s.queue.dequeue with
  | none => exact ⟨rfl, fun _ _ h => by cases h⟩
  | some taken =>
      obtain ⟨message, queue⟩ := taken
      dsimp only
      cases hdeep : services.exceedsMaxDepth s.processed message.envelope.event with
      | true =>
          rw [if_pos rfl]
          have hdeep' : services.spied.exceedsMaxDepth s.processed message.envelope.event = true :=
            hdeep
          rw [if_pos hdeep', recordMaxDepthFailure_spied]
          refine ⟨rfl, ?_⟩
          rintro round t ⟨⟩
          exact (List.append_nil _).symm
      | false =>
          have hdeep' : services.spied.exceedsMaxDepth s.processed message.envelope.event = false :=
            hdeep
          rw [hdeep', if_neg Bool.false_ne_true, if_neg Bool.false_ne_true]
          by_cases hseen : message.envelope.event.eventId ∈ s.seenEventIds
          · rw [if_pos hseen, if_pos hseen]
            refine ⟨rfl, ?_⟩
            rintro round t ⟨⟩
            exact (List.append_nil _).symm
          · rw [if_neg hseen, if_neg hseen]
            obtain ⟨hworld, henqueued, hraised⟩ :=
              services.dispatch_spied message.envelope s.world
            rw [settle_spied services (congrArg Prod.fst hworld) henqueued hraised]
            refine ⟨by rw [Option.map_some, Prod.map, henqueued, hraised]; rfl, ?_⟩
            rintro round t ⟨⟩
            refine (congrArg Prod.snd hworld).trans ?_
            unfold handlerCall
            dsimp only
            split
            · rfl
            · rfl

/-- The call of `run` that starts with no call of a handler written down. -/
def RunCall.spied (call : RunCall W) : RunCall (W × List EventEnvelope) :=
  { queue := call.queue
    world := (call.world, [])
    seed := call.seed }

/-- The calls of the handlers in a call of `run`. -/
def handlerCalls (seen : Finset String) (call : RunCall W) : List EventEnvelope :=
  (services.spied.run seen call.spied).2.world.2

/-- The calls of the handlers in successive calls on one runner. -/
def allHandlerCalls (seen : Finset String) : List (RunCall W) → List EventEnvelope
  | [] => []
  | call :: calls =>
      services.handlerCalls seen call ++
        allHandlerCalls (services.run seen call).2.seenEventIds calls

/-- The spied services run as the services do. -/
theorem run_spied (seen : Finset String) (call : RunCall W) :
    Prod.map id RunnerState.unspied (services.spied.run seen call.spied) =
      services.run seen call :=
  Loop.run_map RunnerState.unspied (fun s => (services.step_spied s).1) _

/-- The calls are those of the rounds that hand an event over. -/
theorem handlerCalls_eq (seen : Finset String) (call : RunCall W) :
    services.handlerCalls seen call =
      (services.run seen call).1.filterMap services.handlerCall := by
  have hcalls : ∀ s : RunnerState (W × List EventEnvelope),
      (services.spied.loop.run s).2.world.2 =
        s.world.2 ++ (services.spied.loop.run s).1.filterMap services.handlerCall := by
    refine @Loop.run_induction _ _ _ _ services.spied.loop (fun s log t => t.world.2 =
      s.world.2 ++ log.filterMap services.handlerCall) (fun s _ => (List.append_nil _).symm) ?_
    intro s round t log u hstep hrun
    rw [hrun, (services.step_spied s).2 round t hstep, List.append_assoc]
    congr 1
    cases hcall : services.handlerCall round with
    | none => rw [List.filterMap_cons_none hcall]; rfl
    | some envelope => rw [List.filterMap_cons_some hcall]; rfl
  have hrun := congrArg Prod.fst (services.run_spied seen call)
  rw [← hrun]
  exact (hcalls _).trans (List.nil_append _)

/-- A handler is only called with an event that a round handles. -/
theorem handlerCalls_sublist (seen : Finset String) (call : RunCall W) :
    ((services.handlerCalls seen call).map (·.event)).Sublist
      ((services.run seen call).1.filterMap Round.handledEvent) := by
  rw [handlerCalls_eq]
  induction (services.run seen call).1 with
  | nil => exact List.Sublist.refl _
  | cons round log ih =>
      rw [List.filterMap_cons, List.filterMap_cons]
      unfold handlerCall Round.handledEvent at *
      cases round.outcome with
      | handled raised =>
          dsimp only
          split
          next hnone =>
            exact ih.cons _
          next envelope hsome =>
            have henvelope : round.message.envelope = envelope := by
              split at hsome
              · exact Option.some.inj hsome
              · cases hsome
            rw [← henvelope]
            exact ih.cons_cons _
      | _ => exact ih

/-- A call of `run` drains the queue: every message that was there, that is the seed or that
was enqueued meanwhile is taken once and acked or failed, the handlers are called within the
limit, and with no event beyond it. -/
structure Drains (call : RunCall W) (log : List Round) (t : RunnerState W)
    (handlerCalls : List EventEnvelope) : Prop where
  empty : t.queue.messages = []
  taken : log.map (·.message) =
    call.queue.messages ++ call.seed :: log.flatMap (·.enqueued)
  acked : t.queue.acked = call.queue.acked ++ log.filterMap Round.acked
  failed : t.queue.failed = call.queue.failed ++ log.filterMap Round.failed
  settled : ∀ round ∈ log, round.acked.isSome ↔ round.failed = none
  calls : handlerCalls.length ≤ services.maxRecursionDepth
  depth : ∀ envelope ∈ handlerCalls,
    envelope.event.causality.depth ≤ services.maxRecursionDepth

theorem drains_run (seen : Finset String) (call : RunCall W) :
    services.Drains call (services.run seen call).1 (services.run seen call).2
      (services.handlerCalls seen call) := by
  have hrun : services.Runs (call.start seen) (services.run seen call).1
      (services.run seen call).2 := runs_loop _
  have hstop : services.loop.step (services.run seen call).2 = none := Loop.step_run _
  have hempty := messages_of_step_eq_none hstop
  have hcalls := hrun.processed ▸ hrun.bounded (Nat.zero_le _)
  have hhandled := services.handlerCalls_sublist seen call
  constructor
  case empty => exact hempty
  case taken => simpa [hempty, RunCall.start, MemoryQueue.enqueue] using hrun.taken
  case acked => exact hrun.acked
  case failed => exact hrun.failed
  case settled => exact fun round _ => round.acked_iff_not_failed
  case calls =>
    have hlength := hhandled.length_le
    rw [List.length_map] at hlength
    exact hlength.trans (by simpa [RunCall.start] using hcalls)
  case depth =>
    exact fun envelope hcall => hrun.depth _ (hhandled.subset (List.mem_map_of_mem hcall))

/-- Successive calls pass no event to a handler twice. -/
theorem nodup_allHandlerCalls (seen : Finset String) (calls : List (RunCall W)) :
    ((services.allHandlerCalls seen calls).map (·.eventId)).Nodup ∧
      ∀ envelope ∈ services.allHandlerCalls seen calls, envelope.eventId ∉ seen := by
  induction calls generalizing seen with
  | nil => exact ⟨List.nodup_nil, List.forall_mem_nil _⟩
  | cons call calls ih =>
      have hrun : services.Runs (call.start seen) (services.run seen call).1
          (services.run seen call).2 := runs_loop _
      have hhandled := services.handlerCalls_sublist seen call
      obtain ⟨honce, hfresh⟩ := ih (services.run seen call).2.seenEventIds
      have hfirst : ((services.handlerCalls seen call).map (·.eventId)).Nodup := by
        have hsub := hhandled.map RuntimeEvent.eventId
        rw [List.map_map] at hsub
        exact hrun.once.sublist hsub
      have hevent : ∀ envelope ∈ services.handlerCalls seen call,
          envelope.event ∈ (services.run seen call).1.filterMap Round.handledEvent :=
        fun envelope hcall => hhandled.subset (List.mem_map_of_mem hcall)
      unfold allHandlerCalls
      rw [List.map_append, List.forall_mem_append]
      refine ⟨List.nodup_append'.2 ⟨hfirst, honce, fun eventId hmem hmem' => ?_⟩, ?_, ?_⟩
      · obtain ⟨envelope, hcall, rfl⟩ := List.mem_map.1 hmem
        obtain ⟨later, hlater, heq⟩ := List.mem_map.1 hmem'
        refine hfresh later hlater (heq ▸ (hrun.seen _).2 (.inr ?_))
        exact List.mem_map_of_mem (hevent envelope hcall)
      · exact fun envelope hcall => hrun.fresh _ (hevent envelope hcall)
      · exact fun later hlater hseen => hfresh later hlater ((hrun.seen _).2 (.inl hseen))

/-- Every call of `run` drains the queue, and successive calls on one runner pass no event to
a handler twice, nor one that the runner had seen before. -/
theorem runner_drains_queue (services : RunnerServices W) (seen : Finset String)
    (calls : List (RunCall W)) :
    (∀ (seen : Finset String) (call : RunCall W),
      services.Drains call (services.run seen call).1 (services.run seen call).2
        (services.handlerCalls seen call)) ∧
    ((services.allHandlerCalls seen calls).map (·.eventId)).Nodup ∧
    ∀ envelope ∈ services.allHandlerCalls seen calls, envelope.eventId ∉ seen :=
  ⟨services.drains_run, services.nodup_allHandlerCalls seen calls⟩

end RunnerServices

end Spied

end PrismAgent
