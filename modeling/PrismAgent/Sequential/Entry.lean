import PrismAgent.Handler.Entry
import PrismAgent.Sequential.Order

/-!
# What one entry does to the world

Over the in-memory store an entry of the action handler saves its plan, executes
its tool and enqueues events. `Moves` records what it did, `Ending` lists the ways
a decision can end, and `decideAction_spec` shows that there is no other.
-/

namespace PrismAgent

open Effect

/-- From `w` to `t` the program saved `plans`, made `executions` and enqueued
`events`; the task graphs and the context snapshots stayed as they were. -/
structure Moves (w t : World MemoryStateStore) (plans : List AgentPlan)
    (executions : List Execution) (events : List EventEnvelope) : Prop where
  planWrites : t.planWrites = w.planWrites ++ plans
  table : t.store.plans = plans.foldl
    (fun table p => Function.update table (p.workspaceId, p.planId) (some p)) w.store.plans
  executions : t.executions = w.executions ++ executions
  queue : t.queue = w.queue ++ events
  taskGraphs : t.store.taskGraphs = w.store.taskGraphs
  contextSnapshots : t.store.contextSnapshots = w.store.contextSnapshots

namespace Moves

variable {w t u : World MemoryStateStore} {plans plans' : List AgentPlan}
  {executions executions' : List Execution} {events events' : List EventEnvelope}

theorem refl (w : World MemoryStateStore) : Moves w w [] [] [] :=
  ⟨(List.append_nil _).symm, rfl, (List.append_nil _).symm, (List.append_nil _).symm, rfl, rfl⟩

theorem trans (h : Moves w t plans executions events)
    (h' : Moves t u plans' executions' events') :
    Moves w u (plans ++ plans') (executions ++ executions') (events ++ events') := by
  constructor
  · rw [h'.planWrites, h.planWrites, List.append_assoc]
  · rw [h'.table, h.table, List.foldl_append]
  · rw [h'.executions, h.executions, List.append_assoc]
  · rw [h'.queue, h.queue, List.append_assoc]
  · rw [h'.taskGraphs, h.taskGraphs]
  · rw [h'.contextSnapshots, h.contextSnapshots]

end Moves

/-- The parts of the world that `Moves` says nothing about. -/
def unobserved : List Part :=
  [.traces, .syncCalls, .idempotencyKeys, .actionResults, .subAgentResults]

/-- Nothing is written but unobserved parts, and only `good` events are enqueued. -/
def announcing (good : EventEnvelope → Prop) : Contract Call Call.Answer Exc where
  calls
    | .enqueue envelope => good envelope
    | call => call.writesIn unobserved = true

section Announcing

variable (env : Env) {w : World MemoryStateStore} {good : EventEnvelope → Prop} {α : Type}
  {Q : α → Prop}

theorem sem_moves {c : Call} (h : c.writesIn unobserved = true) :
    Moves w (env.sem c w).2 [] [] [] := by
  have hsame : ∀ part, part ∉ unobserved → part.Same w (env.sem c w).2 := by
    intro part hpart
    refine sem_same env fun hwrites => hpart ?_
    unfold Call.writesIn at h
    simpa [hwrites] using h
  refine ⟨?_, ?_, ?_, ?_, ?_, ?_⟩
  · rw [(hsame .plans (by decide)).2, List.append_nil]
  · exact (hsame .plans (by decide)).1
  · rw [List.append_nil]
    exact hsame .executions (by decide)
  · rw [List.append_nil]
    exact hsame .queue (by decide)
  · exact hsame .taskGraphs (by decide)
  · exact hsame .contextSnapshots (by decide)

/-- An unobserved call behind other moves. -/
theorem Moves.sem {w₀ : World MemoryStateStore} {plans : List AgentPlan}
    {executions : List Execution} {events : List EventEnvelope}
    (hw : Moves w₀ w plans executions events) {c : Call}
    (h : c.writesIn unobserved = true) :
    Moves w₀ (env.sem c w).2 plans executions events := by
  simpa only [List.append_nil] using hw.trans (sem_moves env h)

/-- A program that only announces enqueues good events and moves nothing else. -/
theorem wp_announcing {p : App α} (hp : p.Respects (announcing good) Q) :
    p.wp env.sem.step (fun r t => (∃ events, Moves w t [] [] events ∧ ∀ e ∈ events, good e) ∧
      ∀ a, r = .ok a → Q a) w := by
  refine Program.wp_of_respects ?_ hp ⟨[], .refl w, by simp⟩
  rintro s call r t hcall hstep ⟨events, hs, hgood⟩
  refine ⟨trivial, ?_⟩
  have ht : t = (env.sem call s).2 := congrArg Prod.snd hstep
  subst ht
  have hother : call.writesIn unobserved = true →
      ∃ events, Moves w (env.sem call s).2 [] [] events ∧ ∀ e ∈ events, good e := by
    intro hwrites
    refine ⟨events, ?_, hgood⟩
    exact hs.sem env hwrites
  cases call with
  | enqueue envelope =>
      have hmoves : Moves s (env.sem (.enqueue envelope) s).2 [] [] [envelope] :=
        ⟨(List.append_nil _).symm, rfl, (List.append_nil _).symm, rfl, rfl, rfl⟩
      refine ⟨events ++ [envelope], hs.trans hmoves, fun e he => ?_⟩
      rcases List.mem_append.1 he with he | he
      · exact hgood e he
      · rw [List.mem_singleton.1 he]
        exact hcall
  | _ => exact hother hcall

end Announcing

/-- Events that start no action: domain events of a terminal type and the settles of
sub-plans. -/
def Announcement (envelope : EventEnvelope) : Prop :=
  (envelope.event.kind = .domain ∧ envelope.event.eventType ∈ TERMINAL_EVENT_TYPES) ∨
    ∃ runId nodeId status, envelope.event.kind = .subagentCompleted runId nodeId status

theorem announces_announcing {good : EventEnvelope → Prop}
    (hgood : ∀ e, Announcement e → good e) :
    ActionEventHandler.Announces (announcing good) :=
  ⟨rfl, fun _ => rfl, fun _ => rfl, fun _ _ _ _ h => hgood _ (.inr ⟨_, _, _, h⟩)⟩

namespace ActionEventHandler

/-- The ways a decision can end: the status the action is left in, the plans saved
on the way and the executions made. -/
inductive Ending (d : Delivery) : ActionStatus → List AgentPlan → List Execution → Prop
  | approval : Ending d .requiresApproval [d.planWith .requiresApproval] []
  | stale : Ending d .stale [d.planWith .stale] []
  | invalid : Ending d .failed [d.planWith .failed] []
  | completed : Ending d .completed [d.planWith .running, d.planWith .completed]
      [⟨d.plan, d.action, d.context, .success⟩]
  | retried : Ending d .pending [d.planWith .running, d.planWith .pending]
      [⟨d.plan, d.action, d.context, .failure⟩]
  | failed : Ending d .failed [d.planWith .running, d.planWith .failed]
      [⟨d.plan, d.action, d.context, .failure⟩]
  | raised : Ending d .failed [d.planWith .running, d.planWith .failed]
      [⟨d.plan, d.action, d.context, .raised⟩]

/-- What a decision that leaves its action in `status` may enqueue. -/
def Follows (d : Delivery) (status : ActionStatus) (envelope : EventEnvelope) : Prop :=
  status = .stale ∨ Announcement envelope ∨
    (status = .pending ∧ envelope.event.workspaceId = d.plan.workspaceId ∧
      envelope.event.kind = .agentAction d.plan.planId d.action.actionId) ∨
    AsksForNext (d.planWith status) envelope

/-- How a decision ends: the action is left in some status, what is enqueued follows
that status and what is chained, behind a COMPLETED action, asks for the next one. -/
def Decides (d : Delivery) (w : World MemoryStateStore)
    (r : Except Exc (Option EventEnvelope)) (t : World MemoryStateStore) : Prop :=
  ∃ status plans executions events, Ending d status plans executions ∧
    Moves w t plans executions events ∧ (∀ e ∈ events, Follows d status e) ∧
    ∀ e, r = .ok (some e) → status = .completed ∧ AsksForNext (d.planWith status) e

section Branches

variable (env : Env) (d : Delivery) {w : World MemoryStateStore} {status : ActionStatus}

theorem announces_follows (d : Delivery) (status : ActionStatus) :
    Announces (announcing (Follows d status)) :=
  announces_announcing fun _ h => .inr (.inl h)

theorem moves_save (status : ActionStatus) :
    Moves w (env.sem (.updatePlan (d.planWith status)) w).2 [d.planWith status] [] [] :=
  ⟨rfl, rfl, (List.append_nil _).symm, (List.append_nil _).symm, rfl, rfl⟩

/-- A save followed by a program that only announces. -/
theorem wp_save_announcing {α : Type} {Q : α → Prop} {p : App α}
    (hp : p.Respects (announcing (Follows d status)) Q) :
    (d.save status >>= fun _ => p).wp env.sem.step
      (fun r t => (∃ events, Moves w t [d.planWith status] [] events ∧
        ∀ e ∈ events, Follows d status e) ∧ ∀ a, r = .ok a → Q a) w := by
  rw [Program.wp_bind, Delivery.save, Program.wp_perform_step]
  refine Program.wp_mono (wp_announcing env hp) ?_
  rintro r t ⟨⟨events, hmoves, hevents⟩, hQ⟩
  exact ⟨⟨events, (moves_save env d status).trans hmoves, hevents⟩, hQ⟩

/-- A program that saves the plan once and enqueues what follows from it. -/
def Settles (p : App Unit) (status : ActionStatus) : Prop :=
  ∀ w : World MemoryStateStore, p.wp env.sem.step (fun _ t =>
    ∃ events, Moves w t [d.planWith status] [] events ∧ ∀ e ∈ events, Follows d status e) w

theorem settles_save {p : App Unit} {Q : Unit → Prop}
    (hp : p.Respects (announcing (Follows d status)) Q) :
    Settles env d (d.save status >>= fun _ => p) status := fun _ =>
  Program.wp_mono (wp_save_announcing env d hp) fun _ _ h => h.1

variable {validation : ValidationResult}

theorem requireApproval_settles (hemitted : ∀ e ∈ validation.emittedEvents,
    e.event.kind = .domain ∧ e.event.eventType ∈ TERMINAL_EVENT_TYPES) :
    Settles env d (requireApproval d validation) .requiresApproval := by
  intro w
  have h := announces_follows d .requiresApproval
  unfold requireApproval
  rw [Program.wp_bind, Program.wp_perform_step]
  refine Program.wp_seq (P := fun _ t => Moves w t [] [] []) ?_ ?_
  · rw [Program.wp_perform_step]
    exact ⟨(), rfl, (sem_moves env (c := .uuid4) rfl).sem env rfl⟩
  rintro - w₁ hw₁
  refine Program.wp_mono (settles_save env d (Q := fun _ => True) ?_ w₁) ?_
  · refine .bind (h.report d _ _ _) fun _ _ => ?_
    refine .bind (Program.respects_perform (Q := fun _ => True) rfl fun _ _ => trivial)
      fun _ _ => ?_
    refine .bind (Announces.enqueueEvents _ fun e he => .inr (.inl (.inl (hemitted e he))))
      fun _ _ => ?_
    exact .bind (h.trace _ _ _ _) fun _ _ => h.settleIfSubplan _ _ _
  · rintro r t ⟨events, hmoves, hevents⟩
    exact ⟨events, hw₁.trans hmoves, hevents⟩

theorem rejectStale_settles : Settles env d (rejectStale d validation) .stale := by
  have h := announces_follows d .stale
  refine settles_save env d (Q := fun _ => True) (.bind (h.report d _ _ _) fun _ _ => ?_)
  refine .bind (h.trace _ _ _ _) fun _ _ => ?_
  split
  · exact h.settleSubplan _ _ _ _
  · refine .bind (Program.respects_perform (Q := fun _ => True) rfl fun _ _ => trivial)
      fun _ _ => ?_
    refine .bind (Program.respects_perform (Q := fun _ => True) (.inl rfl) fun _ _ => trivial)
      fun _ _ => ?_
    exact h.trace _ _ _ _

theorem rejectInvalid_settles : Settles env d (rejectInvalid d validation) .failed := by
  have h := announces_follows d .failed
  refine settles_save env d (Q := fun _ => True) (.bind (h.report d _ _ _) fun _ _ => ?_)
  exact .bind (h.trace _ _ _ _) fun _ _ => h.settleIfSubplan _ _ _

theorem executionError_settles (exc : Exc) :
    Settles env d (executionError d exc) .failed := by
  have h := announces_follows d .failed
  refine settles_save env d (Q := fun _ => True) ?_
  refine .bind (Program.Respects.attempt (h.report d _ _ _)) fun _ _ => ?_
  refine .bind (h.trace _ _ _ _) fun _ _ => .bind (h.trace _ _ _ _) fun _ _ => ?_
  split
  · exact h.settleSubplan _ _ _ _
  · trivial

theorem retry_settles : Settles env d (retry d validation) .pending := by
  have h := announces_follows d .pending
  refine settles_save env d (Q := fun _ => True) ?_
  refine .bind (Program.respects_perform (Q := fun _ => True) rfl fun _ _ => trivial)
    fun _ _ => ?_
  refine .bind (Program.respects_perform (Q := fun _ => True) ?_ fun _ _ => trivial)
    fun _ _ => .bind (h.report d _ _ _) fun _ _ => h.trace _ _ _ _
  exact .inr (.inr (.inl ⟨rfl, rfl, rfl⟩))

theorem failAction_settles : Settles env d (failAction d validation) .failed := by
  have h := announces_follows d .failed
  refine settles_save env d (Q := fun _ => True) (.bind (h.report d _ _ _) fun _ _ => ?_)
  exact .bind (h.trace _ _ _ _) fun _ _ => h.settleIfSubplan _ _ _

/-- Completing the action chains or enqueues the next one. -/
theorem commit_spec (inline : Bool) (hemitted : ∀ e ∈ validation.emittedEvents,
    e.event.kind = .domain ∧ e.event.eventType ∈ TERMINAL_EVENT_TYPES) :
    (commit inline d validation).wp env.sem.step
      (fun r t => (∃ events, Moves w t [d.planWith .completed] [] events ∧
        ∀ e ∈ events, Follows d .completed e) ∧
        ∀ chained, r = .ok chained → ∀ e, chained = some e →
          AsksForNext (d.planWith .completed) e) w := by
  have h := announces_follows d .completed
  refine wp_save_announcing env d (.bind (h.report d _ _ _) fun _ _ => ?_)
  refine .bind (Program.respects_perform (Q := fun _ => True) rfl fun _ _ => trivial)
    fun _ _ => ?_
  refine .bind (Announces.enqueueEvents _ fun e he => .inr (.inl (.inl (hemitted e he))))
    fun _ _ => ?_
  refine .bind (h.trace _ _ _ _) fun _ _ => ?_
  exact h.enqueueNextAction _ _ _ fun e he => .inr (.inr (.inr he))

/-- A branch that chains nothing. -/
theorem wp_settles {p : App Unit} (hp : Settles env d p status)
    {plans : List AgentPlan} {executions : List Execution} {w₀ : World MemoryStateStore}
    (hw : Moves w₀ w plans executions [])
    (hending : Ending d status (plans ++ [d.planWith status]) executions) :
    (p >>= fun _ => (pure none : App (Option EventEnvelope))).wp env.sem.step
      (Decides d w₀) w := by
  rw [Program.wp_bind]
  refine Program.wp_mono (hp w) ?_
  rintro r t ⟨events, hmoves, hevents⟩
  have hdecides : ∀ r', (∀ e, r' ≠ .ok (some e)) → Decides d w₀ r' t := by
    intro r' hr'
    refine ⟨status, _, _, events, hending, ?_, hevents, fun e he => absurd he (hr' e)⟩
    simpa only [List.append_nil, List.nil_append] using hw.trans hmoves
  cases r with
  | error x => exact hdecides _ (by simp)
  | ok _ => exact hdecides _ (by simp)

theorem emitted_of_runTool {tick : ℕ} {action : PlannedAction} {context : AgentContext}
    {result : ToolResult} (h : env.runTool tick action context = .ok result) :
    ∀ e ∈ result.emittedEvents,
      e.event.kind = .domain ∧ e.event.eventType ∈ TERMINAL_EVENT_TYPES := by
  unfold Env.runTool at h
  split at h
  · cases h
  · exact env.emitted_terminal _ _ _ _ h

/-- What the tool's answer leads to, after the RUNNING plan was saved and the tool
ran. -/
theorem settleExecution_decides (inline : Bool) {w₀ : World MemoryStateStore}
    {answer : Except Exc ToolResult}
    (hemitted : ∀ result, answer = .ok result → ∀ e ∈ result.emittedEvents,
      e.event.kind = .domain ∧ e.event.eventType ∈ TERMINAL_EVENT_TYPES)
    (hw : Moves w₀ w [d.planWith .running]
      [⟨d.plan, d.action, d.context, Env.outcomeOf answer⟩] []) :
    (settleExecution inline d answer).wp env.sem.step (Decides d w₀) w := by
  cases answer with
  | error exc => exact wp_settles env d (executionError_settles env d exc) hw .raised
  | ok result =>
      unfold settleExecution settleResult
      rw [Program.wp_bind, Program.wp_perform_step]
      refine Program.wp_seq (P := fun _ t => Moves w₀ t [d.planWith .running]
        [⟨d.plan, d.action, d.context, Env.outcomeOf (.ok result)⟩] []) ?_ ?_
      · rw [Delivery.trace, PrismAgent.trace, Program.wp_perform_step]
        exact ⟨(), rfl, (hw.sem env (c := .saveActionResult result) rfl).sem env rfl⟩
      rintro - w₁ hw₁
      cases hsuccess : result.success with
      | true =>
          have hvalidation : (Validator.validateAfterExecution result).decision = .commit := by
            simp [Validator.validateAfterExecution, hsuccess]
          have hevents : (Validator.validateAfterExecution result).emittedEvents =
              result.emittedEvents := by
            simp [Validator.validateAfterExecution, hsuccess]
          rw [if_pos hvalidation]
          refine Program.wp_mono (commit_spec env d inline ?_) ?_
          · rw [hevents]
            exact hemitted result rfl
          · rintro r t ⟨⟨events, hmoves, hfollows⟩, hchained⟩
            refine ⟨.completed, _, _, events, .completed, ?_, hfollows,
              fun e he => ⟨rfl, hchained _ he e rfl⟩⟩
            have houtcome : Env.outcomeOf (.ok result) = .success := by
              simp [Env.outcomeOf, hsuccess]
            rw [houtcome] at hw₁
            exact hw₁.trans hmoves
      | false =>
          have houtcome : Env.outcomeOf (.ok result) = .failure := by
            simp [Env.outcomeOf, hsuccess]
          have hvalidation : (Validator.validateAfterExecution result).decision ≠ .commit := by
            simp [Validator.validateAfterExecution, hsuccess]
          rw [houtcome] at hw₁
          rw [if_neg hvalidation]
          unfold settleFailure
          split
          · exact wp_settles env d (retry_settles env d) hw₁ .retried
          · exact wp_settles env d (failAction_settles env d) hw₁ .failed

theorem execute_decides (inline : Bool) {w₀ : World MemoryStateStore}
    (hw : Moves w₀ w [] [] []) :
    (execute inline d).wp env.sem.step (Decides d w₀) w := by
  unfold execute
  rw [Program.wp_bind, Delivery.report, Program.wp_perform_step]
  refine Program.wp_seq (P := fun _ t => Moves w₀ t [d.planWith .running] [] []) ?_ ?_
  · rw [Delivery.save, Program.wp_perform_step]
    exact ⟨(), rfl, (hw.sem env (c := .sync _) rfl).trans (moves_save env d .running)⟩
  rintro - w₁ hw₁
  rw [Program.wp_bind, Delivery.trace, PrismAgent.trace, Program.wp_perform_step]
  refine Program.wp_seq (P := fun answer t => (∀ result, answer = .ok result →
    ∀ e ∈ result.emittedEvents, e.event.kind = .domain ∧
      e.event.eventType ∈ TERMINAL_EVENT_TYPES) ∧ Moves w₀ t [d.planWith .running]
        [⟨d.plan, d.action, d.context, Env.outcomeOf answer⟩] []) ?_ ?_
  · rw [Program.wp_attempt_perform_step]
    refine ⟨_, rfl, fun result hresult => emitted_of_runTool env hresult, ?_⟩
    exact (hw₁.sem env (c := .appendTraceEvent _) rfl).trans
      ⟨(List.append_nil _).symm, rfl, rfl, (List.append_nil _).symm, rfl, rfl⟩
  rintro answer w₂ ⟨hemitted, hw₂⟩
  exact settleExecution_decides env d inline hemitted hw₂

/-- Acting on a verdict ends in one of the ways of `Ending`. -/
theorem actOn_decides (inline : Bool) {w₀ : World MemoryStateStore}
    (hemitted : ∀ e ∈ validation.emittedEvents,
      e.event.kind = .domain ∧ e.event.eventType ∈ TERMINAL_EVENT_TYPES)
    (hw : Moves w₀ w [] [] []) :
    (actOn inline d validation).wp env.sem.step (Decides d w₀) w := by
  unfold actOn
  split
  · exact wp_settles env d (requireApproval_settles env d hemitted) hw .approval
  · exact wp_settles env d (rejectStale_settles env d) hw .stale
  · exact wp_settles env d (rejectInvalid_settles env d) hw .invalid
  · exact execute_decides env d inline hw

/-- A decision ends in one of the ways of `Ending`. -/
theorem decideAction_decides (inline : Bool) :
    (decideAction inline d).wp env.sem.step (Decides d w) w := by
  refine Program.wp_seq (P := fun _ t => Moves w t [] [] []) ?_ ?_
  · rw [Delivery.trace, PrismAgent.trace, Program.wp_perform_step]
    exact ⟨(), rfl, sem_moves env rfl⟩
  rintro - w₁ hw₁
  refine Program.wp_seq (P := fun validation t => (∀ e ∈ validation.emittedEvents,
    e.event.kind = .domain ∧ e.event.eventType ∈ TERMINAL_EVENT_TYPES) ∧
      Moves w t [] [] []) ?_ ?_
  · refine Program.wp_mono (validateBeforeExecution_spec env d w₁) ?_
    rintro r w₂ ⟨⟨n, rfl⟩, validation, rfl, -, hemitted⟩
    exact ⟨validation, rfl, hemitted, hw₁.planWrites, hw₁.table, hw₁.executions, hw₁.queue,
      hw₁.taskGraphs, hw₁.contextSnapshots⟩
  rintro validation w₂ ⟨hemitted, hw₂⟩
  rw [Program.wp_bind, Delivery.trace, PrismAgent.trace, Program.wp_perform_step]
  exact actOn_decides env d inline hemitted (hw₂.sem env rfl)

end Branches

/-- How an entry ends that decides on nothing: behind an action that is not PENDING it
may ask for the next one. -/
def Passes (plan : AgentPlan) (actionId : String) (w : World MemoryStateStore)
    (r : Except Exc (Option EventEnvelope)) (t : World MemoryStateStore) : Prop :=
  ∃ events, Moves w t [] [] events ∧
    (∀ e ∈ events, Announcement e ∨ AsksForNext plan e) ∧
    ∀ e, r = .ok (some e) → AsksForNext plan e ∧
      ∃ action, plan.getAction actionId = some action ∧ action.status ≠ .pending

section Entry

variable (env : Env) {w : World MemoryStateStore} {envelope : EventEnvelope}
  {planId actionId : String}

/-- An entry for a stored plan passes, or decides on a PENDING action of it. -/
theorem handleAction_spec (inline : Bool) {plan : AgentPlan}
    (hplan : w.store.getPlan envelope.event.workspaceId planId = some plan) :
    (handleAction inline envelope planId actionId).wp env.sem.step (fun r t =>
      Passes plan actionId w r t ∨ ∃ d : Delivery, d.plan = plan ∧
        plan.getAction actionId = some d.action ∧ d.action.status = .pending ∧
        ∃ w₁, Moves w w₁ [] [] [] ∧ Decides d w₁ r t) w := by
  have hpasses : ∀ {w₁ : World MemoryStateStore}, Moves w w₁ [] [] [] → ∀ x,
      Passes plan actionId w (.error x) w₁ := by
    intro w₁ hw₁ x
    refine ⟨[], hw₁, by simp, ?_⟩
    rintro e ⟨⟩
  have hannounces : Announces (announcing fun e => Announcement e ∨ AsksForNext plan e) :=
    announces_announcing fun _ h => .inl h
  unfold handleAction selectAction
  rw [Program.wp_bind, Program.wp_bind, Program.wp_perform_step]
  change Program.andThen _ _ _ (.ok (w.store.getPlan envelope.event.workspaceId planId)) _
  rw [hplan, Program.andThen_ok]
  have hw₁ : Moves w (env.sem (.getPlan envelope.event.workspaceId planId) w).2 [] [] [] :=
    sem_moves env rfl
  generalize (env.sem (.getPlan envelope.event.workspaceId planId) w).2 = w₁ at hw₁
  dsimp only
  split
  next => exact .inl (hpasses hw₁ _)
  next action haction =>
    split
    next hpending =>
      have hskip := wp_announcing env (w := w₁)
        (hannounces.skipAction inline envelope plan action fun _ h => .inr h)
      change (skipAction inline envelope plan action).wp _ _ w₁
      refine Program.wp_mono hskip ?_
      rintro r t ⟨⟨events, hmoves, hevents⟩, hchained⟩
      refine .inl ⟨events, hw₁.trans hmoves, hevents, fun e he => ?_⟩
      exact ⟨hchained _ he e rfl, action, haction, hpending⟩
    next hpending =>
      rw [Program.wp_bind, Program.wp_perform_step]
      have hw₂ := hw₁.sem env (c := .getContextSnapshot envelope.event.workspaceId
        plan.contextSnapshotRef) rfl
      change Program.andThen _ _ _ (.ok (w₁.store.getContextSnapshot _ _)) _
      rw [Program.andThen_ok]
      generalize (env.sem (.getContextSnapshot envelope.event.workspaceId
        plan.contextSnapshotRef) w₁).2 = w₂ at hw₂
      cases w₁.store.getContextSnapshot envelope.event.workspaceId
        plan.contextSnapshotRef with
      | none => exact .inl (hpasses hw₂ _)
      | some snapshot =>
          dsimp only
          rw [Program.wp_bind, Program.wp_perform_step]
          have hw₃ := hw₂.sem env (c := .checkIdempotencyKey action.idempotencyKey) rfl
          change Program.andThen _ _ _ (.ok (w₂.store.checkIdempotencyKey _)) _
          rw [Program.andThen_ok]
          generalize (env.sem (.checkIdempotencyKey action.idempotencyKey) w₂).2 = w₃ at hw₃
          cases w₂.store.checkIdempotencyKey action.idempotencyKey with
          | true =>
              change ((⟨envelope, plan, action, snapshot.context⟩ : Delivery).trace
                "action.duplicate" >>= fun _ => pure none).wp _ _ w₃
              rw [Program.wp_bind, Delivery.trace, PrismAgent.trace, Program.wp_perform_step]
              refine .inl ⟨[], hw₃.sem env rfl, by simp, ?_⟩
              rintro e ⟨⟩
          | false =>
              change (decideAction inline ⟨envelope, plan, action, snapshot.context⟩).wp _ _ w₃
              refine Program.wp_mono (decideAction_decides env _ inline) ?_
              intro r t ht
              exact .inr ⟨⟨envelope, plan, action, snapshot.context⟩, rfl, haction,
                not_not.1 hpending, w₃, hw₃, ht⟩

end Entry

end ActionEventHandler

end PrismAgent
