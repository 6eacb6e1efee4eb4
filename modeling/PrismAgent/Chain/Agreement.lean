import PrismAgent.Chain.Entries

/-!
# Inline chaining agrees with the queue

Whatever is left of the inline budget at each delivery, the consumer refines the
same machine. So an action event drains to the same outcome as when every action
crosses the queue.
-/

namespace PrismAgent

open Effect ActionEventHandler

/-- The events of an invocation leave at most one action event, and the view moves on
by steps of the machine. -/
theorem Oracle.consumer_refines (env : Env) (oracle : Oracle)
    (budgets : ℕ → World MemoryStateStore → ℕ) :
    (oracle.consumer env budgets).Refines oracle.next World.view EventEnvelope.token := by
  constructor
  intro position envelope w hlive
  obtain ⟨n, rest, hsteps, -, events, hqueue, htokens⟩ :=
    (Program.wp_step_iff (oracle.sem env) w _ _).1 (handleWith_advances (budgets position w) hlive)
  exact ⟨n, events, rest, hqueue, hsteps, htokens⟩

/-- The queue holds one event. -/
def World.withQueue (w : World MemoryStateStore) (envelope : EventEnvelope) :
    World MemoryStateStore :=
  { w with queue := [envelope] }

theorem Oracle.tracks_withQueue (env : Env) (oracle : Oracle)
    (budgets : ℕ → World MemoryStateStore → ℕ) (w : World MemoryStateStore)
    (envelope : EventEnvelope) :
    (oracle.consumer env budgets).Tracks World.view EventEnvelope.token
      (w.withQueue envelope, 0)
      (w.view, if envelope.isAction then some envelope.token else none) := by
  constructor
  · rfl
  · by_cases h : envelope.isAction = true
    · simp [Consumer.pending, Oracle.consumer, World.withQueue, h]
    · simp [Consumer.pending, Oracle.consumer, World.withQueue, h]

/-- Two worlds with the same plans, tool executions, action results up to their ids,
consumed keys and reports. -/
structure SameOutcome (t t' : World MemoryStateStore) : Prop where
  plans : ∀ workspaceId planId,
    t.store.getPlan workspaceId planId = t'.store.getPlan workspaceId planId
  executions : t.executions = t'.executions
  actionResults : ∀ planId actionId,
    (t.store.getActionResult planId actionId).map ToolResult.anonymous =
      (t'.store.getActionResult planId actionId).map ToolResult.anonymous
  idempotencyKeys : t.store.idempotencyKeys = t'.store.idempotencyKeys
  syncCalls : t.syncCalls = t'.syncCalls

theorem sameOutcome_of_view {t t' : World MemoryStateStore} (h : t.view = t'.view) :
    SameOutcome t t' where
  plans workspaceId planId := congrFun (congrArg View.plans h) (workspaceId, planId)
  executions := congrArg View.executions h
  actionResults planId actionId := congrFun (congrArg View.actionResults h) (planId, actionId)
  idempotencyKeys := congrArg View.idempotencyKeys h
  syncCalls := congrArg View.syncCalls h

/-- An event drains to the same outcome whether or not the handler chains actions
inline, and it drains with chaining exactly when it does without. -/
theorem inline_chaining_agrees (env : Env) (oracle : Oracle)
    (budgets : ℕ → World MemoryStateStore → ℕ) (w : World MemoryStateStore)
    (envelope : EventEnvelope) :
    ((∃ t, (oracle.consumer env budgets).DrainsTo (w.withQueue envelope, 0) t) ↔
      ∃ t, (oracle.consumer env fun _ _ => 0).DrainsTo (w.withQueue envelope, 0) t) ∧
      ∀ t t', (oracle.consumer env budgets).DrainsTo (w.withQueue envelope, 0) t →
        (oracle.consumer env fun _ _ => 0).DrainsTo (w.withQueue envelope, 0) t' →
        SameOutcome t t' := by
  have hagree := (oracle.consumer_refines env budgets).agree
    (oracle.consumer_refines env fun _ _ => 0) (oracle.tracks_withQueue env budgets w envelope)
    (oracle.tracks_withQueue env (fun _ _ => 0) w envelope)
  refine ⟨hagree.1, ?_⟩
  intro t t' ht ht'
  exact sameOutcome_of_view (hagree.2 t t' ht ht')

end PrismAgent
