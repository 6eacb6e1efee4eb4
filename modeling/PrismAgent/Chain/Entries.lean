import PrismAgent.Chain.View
import PrismAgent.Handler.Entry

/-!
# Entries move the view

Against an oracle an entry of the handler does to the view what `Oracle.next` says,
and leaves the next token as an action event: enqueued, or handed on to be chained.
`Lands` records what a program did so far and `Leaves` what an entry did.
-/

namespace PrismAgent

open Effect

/-- The tokens of the action events in a list. -/
def tokens (events : List EventEnvelope) : List Token :=
  (events.filter EventEnvelope.isAction).map EventEnvelope.token

@[simp] theorem tokens_nil : tokens [] = [] := rfl

theorem tokens_append (events events' : List EventEnvelope) :
    tokens (events ++ events') = tokens events ++ tokens events' := by
  simp [tokens]

theorem tokens_singleton_of_action {e : EventEnvelope} (h : e.isAction = true) :
    tokens [e] = [e.token] := by
  simp [tokens, h]

/-- From `w` on, the view became `v` and events with the tokens `ts` were enqueued. -/
structure Lands (w : World MemoryStateStore) (v : View) (ts : List Token)
    (t : World MemoryStateStore) : Prop where
  view : t.view = v
  queue : ∃ events, t.queue = w.queue ++ events ∧ tokens events = ts

/-- What is handed on to be chained. -/
def chained : Except Exc (Option EventEnvelope) → List Token
  | .ok (some e) => [e.token]
  | _ => []

theorem chained_eq_nil {r : Except Exc (Option EventEnvelope)} (h : ∀ e, r ≠ .ok (some e)) :
    chained r = [] := by
  rcases r with _ | _ | e
  · rfl
  · rfl
  · exact absurd rfl (h e)

/-- An entry leaves the view and the token of `x`; it chains actions only, and only
inline. -/
def Leaves (inline : Bool) (w : World MemoryStateStore) (x : View × Option Token)
    (r : Except Exc (Option EventEnvelope)) (t : World MemoryStateStore) : Prop :=
  (∃ ts, Lands w x.1 ts t ∧ ts ++ chained r = x.2.toList) ∧
    ∀ e, r = .ok (some e) → inline = true ∧ e.isAction = true

/-- The calls that the view does not show and that enqueue no action event. -/
def Silent : Call → Prop
  | .enqueue envelope => envelope.isAction = false
  | .getPlan _ _ | .getContextSnapshot _ _ | .checkIdempotencyKey _ => True
  | .appendTraceEvent _ | .uuid4 => True
  | _ => False

section Lands

variable {env : Env} {oracle : Oracle} {w t : World MemoryStateStore} {v : View}
  {ts : List Token} {inline : Bool} {α β : Type}

theorem Lands.refl (w : World MemoryStateStore) : Lands w w.view [] w :=
  ⟨rfl, [], (List.append_nil _).symm, rfl⟩

theorem Lands.silent {call : Call} (h : Lands w v ts t) (hcall : Silent call) :
    Lands w v ts (oracle.sem env call t).2 := by
  obtain ⟨hview, events, hqueue, htokens⟩ := h
  cases call with
  | enqueue envelope =>
      refine ⟨hview, events ++ [envelope], ?_, ?_⟩
      · change t.queue ++ [envelope] = _
        rw [hqueue, List.append_assoc]
      · have hnone : tokens [envelope] = [] := by simp [tokens, show _ = false from hcall]
        rw [tokens_append, hnone, List.append_nil, htokens]
  | getPlan | getContextSnapshot | checkIdempotencyKey | appendTraceEvent | uuid4 =>
      exact ⟨hview, events, hqueue, htokens⟩
  | _ => exact hcall.elim

/-- A silent program keeps the view and adds no token. -/
theorem Lands.wp_silent {p : App α} (h : Lands w v ts t) (hp : p.OnlyCalls Silent) :
    p.wp (oracle.sem env).step (fun _ u => Lands w v ts u) t := by
  refine Program.wp_of_onlyCalls ?_ hp h
  intro s call r u hcall hstep hs
  have hu : u = (oracle.sem env call s).2 := congrArg Prod.snd hstep
  rw [hu]
  exact hs.silent hcall

theorem Lands.move {u : World MemoryStateStore} (h : Lands w v ts t) (f : View → View)
    (hview : u.view = f t.view) (hqueue : u.queue = t.queue) : Lands w (f v) ts u := by
  constructor
  · rw [hview, h.view]
  · rw [hqueue]
    exact h.queue

/-- A call that changes the view by `f`. -/
theorem Lands.wp_call {call : Call} {a : call.Answer} {k : call.Answer → App β}
    {Q : Except Exc β → World MemoryStateStore → Prop} (h : Lands w v ts t) (f : View → View)
    (hanswer : (oracle.sem env call t).1 = .ok a)
    (hview : (oracle.sem env call t).2.view = f t.view)
    (hqueue : (oracle.sem env call t).2.queue = t.queue)
    (hk : ∀ u, Lands w (f v) ts u → (k a).wp (oracle.sem env).step Q u) :
    (perform call >>= k).wp (oracle.sem env).step Q t := by
  rw [Program.wp_bind, Program.wp_perform_step, hanswer]
  exact hk _ (h.move f hview hqueue)

/-- A silent call, and what follows. -/
theorem Lands.wp_silent_bind {call : Call} {a : call.Answer} {k : call.Answer → App β}
    {Q : Except Exc β → World MemoryStateStore → Prop} (h : Lands w v ts t)
    (hcall : Silent call) (hanswer : (oracle.sem env call t).1 = .ok a)
    (hk : ∀ u, Lands w v ts u → (k a).wp (oracle.sem env).step Q u) :
    (perform call >>= k).wp (oracle.sem env).step Q t := by
  rw [Program.wp_bind, Program.wp_perform_step, hanswer]
  exact hk _ (h.silent hcall)

/-- An action event is enqueued. -/
theorem Lands.wp_enqueue {e : EventEnvelope} {k : Unit → App β}
    {Q : Except Exc β → World MemoryStateStore → Prop} (h : Lands w v ts t)
    (he : e.isAction = true)
    (hk : ∀ u, Lands w v (ts ++ [e.token]) u → (k ()).wp (oracle.sem env).step Q u) :
    (perform (.enqueue e) >>= k).wp (oracle.sem env).step Q t := by
  rw [Program.wp_bind, Program.wp_perform_step]
  apply hk
  obtain ⟨hview, events, hqueue, htokens⟩ := h
  refine ⟨hview, events ++ [e], ?_, ?_⟩
  · change t.queue ++ [e] = _
    rw [hqueue, List.append_assoc]
  · rw [tokens_append, tokens_singleton_of_action he, htokens]

theorem Lands.trans {u : World MemoryStateStore} {v' : View} {ts' : List Token}
    (h : Lands w v ts t) (h' : Lands t v' ts' u) : Lands w v' (ts ++ ts') u := by
  obtain ⟨-, events, hqueue, rfl⟩ := h
  obtain ⟨hview, events', hqueue', rfl⟩ := h'
  refine ⟨hview, events ++ events', ?_, tokens_append _ _⟩
  rw [hqueue', hqueue, List.append_assoc]

/-- An entry that chains nothing. -/
theorem Lands.leaves {x : View × Option Token} {r : Except Exc (Option EventEnvelope)}
    (h : Lands w x.1 x.2.toList t) (hr : ∀ e, r ≠ .ok (some e)) : Leaves inline w x r t := by
  refine ⟨⟨_, h, ?_⟩, fun e he => absurd he (hr e)⟩
  rw [chained_eq_nil hr, List.append_nil]

/-- An entry that chained nothing left its token in the queue. -/
theorem Leaves.lands {x : View × Option Token} {r : Except Exc (Option EventEnvelope)}
    (h : Leaves inline w x r t) (hr : ∀ e, r ≠ .ok (some e)) : Lands w x.1 x.2.toList t := by
  obtain ⟨⟨ts, hlands, htokens⟩, -⟩ := h
  rw [chained_eq_nil hr, List.append_nil] at htokens
  rwa [← htokens]

theorem leaves_of_lands {p : App Unit} {x : View × Option Token}
    (hp : p.wp (oracle.sem env).step (fun _ u => Lands w x.1 x.2.toList u) t) :
    (p >>= fun _ => (pure none : App (Option EventEnvelope))).wp (oracle.sem env).step
      (Leaves inline w x) t := by
  rw [Program.wp_bind]
  refine Program.wp_mono hp ?_
  intro r u hu
  cases r with
  | error x => exact hu.leaves (by simp)
  | ok _ => exact hu.leaves (by simp)

end Lands

namespace ActionEventHandler

theorem settleSubplan_silent (envelope : EventEnvelope) (plan : AgentPlan) (status : String)
    (message : Option String) :
    (settleSubplan envelope plan status message).OnlyCalls Silent := by
  unfold settleSubplan
  split
  · refine .bind ((Program.onlyCalls_perform _).2 trivial) fun _ => ?_
    refine .bind ((Program.onlyCalls_perform _).2 rfl) fun _ => ?_
    exact (Program.onlyCalls_perform _).2 trivial
  · exact trivial

theorem settleIfSubplan_silent (d : Delivery) (status : String) (message : Option String) :
    (settleIfSubplan d status message).OnlyCalls Silent := by
  unfold settleIfSubplan
  split
  · exact settleSubplan_silent _ _ _ _
  · exact trivial

theorem trace_silent (event : RuntimeEvent) (eventName : String)
    (planId actionId : Option String) :
    (PrismAgent.trace event eventName planId actionId).OnlyCalls Silent :=
  (Program.onlyCalls_perform _).2 trivial

/-- A new plan is asked for by an event of the source's class. -/
theorem replanEvent_not_action (eventId : String) (d : Delivery)
    (staleEntities : Dict String StaleEntity) (reason : String) :
    (EventEnvelope.wrap (replanEvent eventId d staleEntities reason)).isAction = false := by
  unfold EventEnvelope.isAction EventEnvelope.wrap replanEvent
  cases hkind : d.context.sourceEvent.event.kind <;> simp [hkind]

/-- What the machine needs to know of a delivery. -/
def Delivery.chosen (d : Delivery) : Chosen := ⟨d.plan, d.action, d.context, d.envelope.attempt⟩

section Branches

variable {env : Env} {oracle : Oracle} {w t : World MemoryStateStore} {v : View}
  {d : Delivery} {validation : ValidationResult}

/-- Save the plan with its action in `status`, report it and fall silent. -/
theorem wp_settle {status : ActionStatus} {eventName message : String} {rest : App Unit}
    (h : Lands w v [] t) (hrest : rest.OnlyCalls Silent) :
    (d.save status >>= fun _ => d.report status eventName message >>= fun _ => rest).wp
      (oracle.sem env).step
      (fun _ u => Lands w (v.settle d.chosen status eventName message) [] u) t := by
  apply h.wp_call (fun v => v.save (d.planWith status)) rfl rfl rfl
  intro u hu
  apply hu.wp_call (fun v => v.report _) rfl rfl rfl
  intro u hu
  exact hu.wp_silent hrest

theorem view_saveActionResult (result : ToolResult) :
    (oracle.sem env (.saveActionResult result) t).2.view = t.view.saveResult result := by
  have hresults : (fun key => (Function.update t.store.actionResults
      (result.planId, result.actionId) (some result) key).map ToolResult.anonymous) =
      Function.update (fun key => (t.store.actionResults key).map ToolResult.anonymous)
        (result.planId, result.actionId) (some result.anonymous) :=
    Function.comp_update (Option.map ToolResult.anonymous) _ _ _
  exact congrArg (fun results => ({ t.view with actionResults := results } : View)) hresults

/-- Events that are no action events are enqueued, and what follows. -/
theorem wp_enqueueEvents {ts : List Token} {β : Type} {k : Unit → App β}
    {Q : Except Exc β → World MemoryStateStore → Prop} {envelopes : List EventEnvelope}
    (h : Lands w v ts t) (hevents : ∀ e ∈ envelopes, e.isAction = false)
    (hk : ∀ u, Lands w v ts u → (k ()).wp (oracle.sem env).step Q u) :
    (enqueueEvents envelopes >>= k).wp (oracle.sem env).step Q t := by
  induction envelopes generalizing t with
  | nil => exact hk t h
  | cons e envelopes ih =>
      have he : Silent (.enqueue e) := hevents e List.mem_cons_self
      rw [Program.wp_bind, enqueueEvents, Program.wp_bind, Program.wp_perform_step]
      change (enqueueEvents envelopes).wp _ _ _
      rw [← Program.wp_bind]
      exact ih (h.silent he) fun e' he' => hevents e' (List.mem_cons_of_mem e he')

theorem requireApproval_lands (h : Lands w v [] t)
    (hemitted : ∀ e ∈ validation.emittedEvents, e.isAction = false) :
    (requireApproval d validation).wp (oracle.sem env).step
      (fun _ u => Lands w (v.requireApproval d.chosen validation) [] u) t := by
  unfold requireApproval
  apply h.wp_silent_bind (by trivial) rfl
  intro u hu
  apply hu.wp_call (fun v => v.saveResult _) rfl (view_saveActionResult _) rfl
  intro u hu
  apply hu.wp_call (fun v => v.save (d.planWith .requiresApproval)) rfl rfl rfl
  intro u hu
  apply hu.wp_call (fun v => v.report _) rfl rfl rfl
  intro u hu
  apply hu.wp_call (fun v => v.consume d.action.idempotencyKey) rfl rfl rfl
  intro u hu
  apply wp_enqueueEvents hu hemitted
  intro u hu
  exact hu.wp_silent (.bind (trace_silent _ _ _ _) fun _ => settleIfSubplan_silent _ _ _)

theorem rejectStale_lands (h : Lands w v [] t) :
    (rejectStale d validation).wp (oracle.sem env).step
      (fun _ u => Lands w (v.settle d.chosen .stale "action.stale_context"
        "Action blocked because expected entity versions are stale.") [] u) t := by
  apply wp_settle h
  apply Program.OnlyCalls.bind (trace_silent _ _ _ _)
  intro _
  split
  · exact settleSubplan_silent _ _ _ _
  · apply Program.OnlyCalls.bind ((Program.onlyCalls_perform _).2 trivial)
    intro eventId
    refine .bind ((Program.onlyCalls_perform _).2 ?_) fun _ => trace_silent _ _ _ _
    exact replanEvent_not_action _ _ _ _

theorem rejectInvalid_lands (h : Lands w v [] t) :
    (rejectInvalid d validation).wp (oracle.sem env).step
      (fun _ u => Lands w (v.settle d.chosen .failed "action.validation_failed"
        (orElseText validation.reason "Action validation failed.")) [] u) t := by
  apply wp_settle h
  exact .bind (trace_silent _ _ _ _) fun _ => settleIfSubplan_silent _ _ _

theorem executionError_lands (h : Lands w v [] t) (exc : Exc) :
    (executionError d exc).wp (oracle.sem env).step
      (fun _ u => Lands w (v.settle d.chosen .failed "action.execution_error"
        ("Tool " ++ d.action.toolName ++ " failed: " ++ exc.toStr)) [] u) t := by
  unfold executionError
  apply h.wp_call (fun v => v.save (d.planWith .failed)) rfl rfl rfl
  intro u hu
  rw [Program.wp_bind, Delivery.report, Program.wp_attempt_perform_step]
  apply Lands.wp_silent
  · exact hu.move (fun v => v.report (d.chosen.report .failed "action.execution_error"
      ("Tool " ++ d.action.toolName ++ " failed: " ++ exc.toStr))) rfl rfl
  · apply Program.OnlyCalls.bind (trace_silent _ _ _ _)
    intro _
    apply Program.OnlyCalls.bind (trace_silent _ _ _ _)
    intro _
    split
    · exact settleSubplan_silent _ _ _ _
    · trivial

theorem settleFailure_lands (h : Lands w v [] t) :
    (settleFailure d validation).wp (oracle.sem env).step
      (fun _ u => Lands w (v.settleFailure d.chosen validation).1
        (v.settleFailure d.chosen validation).2.toList u) t := by
  unfold settleFailure View.settleFailure
  split
  next hretry =>
    have hchosen : validation.decision = .retry ∧
        d.chosen.attempt + 1 < ACTION_EXECUTION_ATTEMPTS := hretry
    rw [if_pos hchosen]
    unfold retry
    apply h.wp_call (fun v => v.save (d.planWith .pending)) rfl rfl rfl
    intro u hu
    apply hu.wp_silent_bind (by trivial) rfl
    intro u hu
    apply hu.wp_enqueue rfl
    intro u hu
    apply hu.wp_call (fun v => v.report _) rfl rfl rfl
    intro u hu
    exact hu.wp_silent (trace_silent _ _ _ _)
  next hfail =>
    have hchosen : ¬ (validation.decision = .retry ∧
        d.chosen.attempt + 1 < ACTION_EXECUTION_ATTEMPTS) := hfail
    rw [if_neg hchosen]
    apply wp_settle h
    exact .bind (trace_silent _ _ _ _) fun _ => settleIfSubplan_silent _ _ _

theorem finishPlan_lands {envelope : EventEnvelope} {plan : AgentPlan} (h : Lands w v [] t)
    (hnext : plan.nextPendingAction = none) :
    (finishPlan envelope plan).wp (oracle.sem env).step
      (fun _ u => Lands w (v.proceed plan).1 (v.proceed plan).2.toList u) t := by
  unfold finishPlan View.proceed
  rw [hnext]
  by_cases hcompleted : plan.status = .completed
  · rw [if_pos hcompleted]
    by_cases hsubplan : plan.isSubplan = true
    · simp only [hcompleted, hsubplan, if_true]
      exact h.wp_silent (.bind (trace_silent _ _ _ _) fun _ => settleSubplan_silent _ _ _ _)
    · simp only [hcompleted, hsubplan]
      apply h.wp_call (fun v => v.report _) rfl rfl rfl
      intro u hu
      exact hu.wp_silent (trace_silent _ _ _ _)
  · simp only [hcompleted, if_false, false_and]
    exact h.wp_silent (trace_silent _ _ _ _)

/-- What comes next is chained or enqueued. -/
theorem enqueueNextAction_leaves (inline : Bool) (envelope : EventEnvelope) (plan : AgentPlan)
    (h : Lands w v [] t) :
    (enqueueNextAction inline envelope plan).wp (oracle.sem env).step
      (Leaves inline w (v.proceed plan)) t := by
  unfold enqueueNextAction
  split
  next hnext => exact leaves_of_lands (finishPlan_lands h hnext)
  next next hnext =>
    have hproceed : v.proceed plan =
        (v, some ⟨plan.workspaceId, plan.planId, next.actionId, 0⟩) := by
      unfold View.proceed
      rw [hnext]
    rw [hproceed]
    apply h.wp_silent_bind (by trivial) rfl
    intro u hu
    dsimp only
    split
    next hinline =>
      apply hu.wp_silent_bind (by trivial) rfl
      intro u hu
      refine ⟨⟨[], hu, rfl⟩, ?_⟩
      rintro e ⟨⟩
      exact ⟨hinline.2, rfl⟩
    next =>
      apply hu.wp_enqueue rfl
      intro u hu
      apply hu.wp_silent_bind (by trivial) rfl
      intro u hu
      refine ⟨⟨_, hu, rfl⟩, ?_⟩
      rintro e ⟨⟩

/-- The action is COMPLETED. -/
theorem commit_leaves (inline : Bool) (h : Lands w v [] t)
    (hemitted : ∀ e ∈ validation.emittedEvents, e.isAction = false) :
    (commit inline d validation).wp (oracle.sem env).step
      (Leaves inline w (v.commit d.chosen)) t := by
  unfold commit
  apply h.wp_call (fun v => v.save (d.planWith .completed)) rfl rfl rfl
  intro u hu
  apply hu.wp_call (fun v => v.report _) rfl rfl rfl
  intro u hu
  apply hu.wp_call (fun v => v.consume d.action.idempotencyKey) rfl rfl rfl
  intro u hu
  apply wp_enqueueEvents hu hemitted
  intro u hu
  apply hu.wp_silent_bind (by trivial) rfl
  intro u hu
  exact enqueueNextAction_leaves inline d.envelope (d.planWith .completed) hu

/-- What the tool's answer leads to. -/
theorem settleExecution_leaves (inline : Bool) {answer : Except Exc ToolResult}
    (h : Lands w v [] t)
    (hemitted : ∀ result, answer = .ok result → ∀ e ∈ result.emittedEvents, e.isAction = false) :
    (settleExecution inline d answer).wp (oracle.sem env).step
      (Leaves inline w (v.settleExecution d.chosen answer)) t := by
  cases answer with
  | error exc => exact leaves_of_lands (executionError_lands h exc)
  | ok result =>
      unfold settleExecution settleResult View.settleExecution
      apply h.wp_call (fun v => v.saveResult result) rfl (view_saveActionResult _) rfl
      intro u hu
      apply hu.wp_silent_bind (by trivial) rfl
      intro u hu
      dsimp only
      split
      next hcommit =>
        apply commit_leaves inline hu
        have hsuccess : result.success = true := by
          unfold Validator.validateAfterExecution at hcommit
          split at hcommit
          · assumption
          · cases hcommit
        have hevents : (Validator.validateAfterExecution result).emittedEvents =
            result.emittedEvents := by
          simp [Validator.validateAfterExecution, hsuccess]
        rw [hevents]
        exact hemitted result rfl
      next => exact leaves_of_lands (settleFailure_lands hu)

/-- The tool is called, with the attempts that the view counts. -/
theorem execute_leaves (inline : Bool) {answer : Except Exc ToolResult} (h : Lands w v [] t)
    (hanswer : answer = oracle.execute d.action d.context (v.attempts d.action)) :
    (execute inline d).wp (oracle.sem env).step
      (Leaves inline w ((v.execute d.chosen answer).settleExecution d.chosen answer)) t := by
  unfold execute
  apply h.wp_call (fun v => v.report _) rfl rfl rfl
  intro u hu
  apply hu.wp_call (fun v => v.save (d.planWith .running)) rfl rfl rfl
  intro u hu
  apply hu.wp_silent_bind (by trivial) rfl
  intro u hu
  have hattempts : u.attempts d.action = v.attempts d.action :=
    congrArg (fun v => v.attempts d.action) hu.view
  rw [← hattempts] at hanswer
  subst hanswer
  rw [Program.wp_bind, Program.wp_attempt_perform_step]
  apply settleExecution_leaves
  · exact hu.move (fun v => v.ran _) rfl rfl
  · intro result hresult
    exact oracle.execute_emitted _ _ _ result hresult

theorem actOn_leaves (inline : Bool) (h : Lands w v [] t)
    (hemitted : ∀ e ∈ validation.emittedEvents, e.isAction = false) :
    (actOn inline d validation).wp (oracle.sem env).step
      (Leaves inline w (v.actOn oracle d.chosen validation)) t := by
  unfold actOn View.actOn
  cases validation.decision with
  | suggest => exact leaves_of_lands (requireApproval_lands h hemitted)
  | replan => exact leaves_of_lands (rejectStale_lands h)
  | fail => exact leaves_of_lands (rejectInvalid_lands h)
  | _ => exact execute_leaves inline h rfl

end Branches

section Entry

variable {env : Env} {oracle : Oracle} {w t : World MemoryStateStore}
  {envelope : EventEnvelope} {planId actionId : String}

theorem skipAction_leaves (inline : Bool) {v : View} (plan : AgentPlan) (action : PlannedAction)
    (h : Lands w v [] t) :
    (skipAction inline envelope plan action).wp (oracle.sem env).step
      (Leaves inline w (if action.status = .completed ∨ action.status = .skipped then v.proceed plan
        else (v, none))) t := by
  unfold skipAction
  apply h.wp_silent_bind (by trivial) rfl
  intro u hu
  split
  · exact enqueueNextAction_leaves inline envelope plan hu
  · exact Lands.leaves (x := (v, none)) hu (by simp)

theorem decideActionWith_leaves (inline : Bool) {v : View} {d : Delivery} (h : Lands w v [] t) :
    (decideActionWith oracle.validation inline d).wp (oracle.sem env).step
      (Leaves inline w (v.actOn oracle d.chosen
        (oracle.validate d.action d.context d.envelope.attempt))) t := by
  unfold decideActionWith
  apply h.wp_silent_bind (by trivial) rfl
  intro u hu
  apply hu.wp_silent_bind (by trivial) rfl
  intro u hu
  exact actOn_leaves inline hu (oracle.validate_emitted _ _ _)

/-- An entry does what `Oracle.next` says. -/
theorem handleOneWith_leaves (inline : Bool) (haction : envelope.isAction = true) :
    (handleOneWith oracle.validation inline envelope).wp (oracle.sem env).step
      (Leaves inline t (oracle.next t.view envelope.token)) t := by
  obtain ⟨planId, actionId, hkind⟩ :
      ∃ planId actionId, envelope.event.kind = .agentAction planId actionId := by
    unfold EventEnvelope.isAction at haction
    split at haction
    next planId actionId hkind => exact ⟨planId, actionId, hkind⟩
    next => cases haction
  have htoken : envelope.token =
      ⟨envelope.event.workspaceId, planId, actionId, envelope.attempt⟩ := by
    unfold EventEnvelope.token
    rw [hkind]
  have hrest : ∀ {u r}, Lands t t.view [] u → (∀ e, r ≠ .ok (some e)) →
      Leaves inline t (t.view, none) r u := fun hu hr => Lands.leaves (x := (t.view, none)) hu hr
  unfold handleOneWith Oracle.next selectAction
  rw [hkind, htoken, Program.wp_bind]
  dsimp only
  apply (Lands.refl t).wp_silent_bind (by trivial) rfl
  intro u hu
  have hplan : t.view.plans (envelope.event.workspaceId, planId) =
      t.store.getPlan envelope.event.workspaceId planId := rfl
  rw [hplan]
  cases t.store.getPlan envelope.event.workspaceId planId with
  | none => exact hrest hu (by simp)
  | some plan =>
      dsimp only
      cases plan.getAction actionId with
      | none => exact hrest hu (by simp)
      | some action =>
          dsimp only
          by_cases hpending : action.status = .pending
          · simp only [hpending, ne_eq, not_true_eq_false, if_false]
            have hsnapshot : t.view.contextSnapshots
                (envelope.event.workspaceId, plan.contextSnapshotRef) =
                u.store.getContextSnapshot envelope.event.workspaceId plan.contextSnapshotRef :=
              congrFun (congrArg View.contextSnapshots hu.view.symm) _
            rw [hsnapshot]
            apply hu.wp_silent_bind (by trivial) rfl
            intro u₁ hu₁
            cases u.store.getContextSnapshot envelope.event.workspaceId
                plan.contextSnapshotRef with
            | none => exact hrest hu₁ (by simp)
            | some snapshot =>
                dsimp only
                have hkey : u₁.store.idempotencyKeys = t.view.idempotencyKeys :=
                  congrArg View.idempotencyKeys hu₁.view
                apply hu₁.wp_silent_bind (by trivial) rfl
                intro u₂ hu₂
                by_cases hconsumed : action.idempotencyKey ∈ t.view.idempotencyKeys
                · have hcheck : u₁.store.checkIdempotencyKey action.idempotencyKey = true := by
                    simpa [MemoryStateStore.checkIdempotencyKey, hkey] using hconsumed
                  rw [hcheck, if_pos hconsumed]
                  apply hu₂.wp_silent_bind (by trivial) rfl
                  intro u₃ hu₃
                  exact hrest hu₃ (by simp)
                · have hcheck : u₁.store.checkIdempotencyKey action.idempotencyKey = false := by
                    simpa [MemoryStateStore.checkIdempotencyKey, hkey] using hconsumed
                  rw [hcheck, if_neg hconsumed]
                  exact decideActionWith_leaves inline hu₂
          · simp only [hpending, ne_eq, not_false_eq_true, if_true]
            exact skipAction_leaves inline plan action hu

theorem eq_some_of_append_singleton {ts : List Token} {token : Token} {rest : Option Token}
    (h : ts ++ [token] = rest.toList) : ts = [] ∧ rest = some token := by
  cases rest with
  | none => simp at h
  | some token' =>
      obtain ⟨rfl, htoken⟩ : ts = [] ∧ token = token' := by
        simpa [List.append_eq_singleton_iff] using h
      exact ⟨rfl, congrArg some htoken.symm⟩

theorem takes_one {u : World MemoryStateStore} {token : Token}
    (h : Lands t (oracle.next t.view token).1 (oracle.next t.view token).2.toList u) :
    ∃ n rest, (advance oracle.next)^[n + 1] (t.view, some token) = (u.view, rest) ∧
      Lands t u.view rest.toList u := by
  refine ⟨0, (oracle.next t.view token).2, ?_, ?_⟩
  · rw [h.view]
    rfl
  · rwa [h.view]

/-- An invocation takes one step of the machine for each of its entries. -/
theorem handleWith_advances (budget : ℕ) (haction : envelope.isAction = true) :
    (handleWith oracle.validation budget envelope).wp (oracle.sem env).step
      (fun _ u => ∃ n rest, (advance oracle.next)^[n + 1] (t.view, some envelope.token) =
        (u.view, rest) ∧ Lands t u.view rest.toList u) t := by
  induction budget generalizing envelope t with
  | zero =>
      unfold handleWith
      rw [Program.wp_bind]
      refine Program.wp_mono (handleOneWith_leaves false haction) ?_
      intro r u hleaves
      have hlands : Lands t (oracle.next t.view envelope.token).1
          (oracle.next t.view envelope.token).2.toList u := by
        apply hleaves.lands
        intro e he
        cases (hleaves.2 e he).1
      cases r <;> exact takes_one hlands
  | succ budget ih =>
      unfold handleWith
      rw [Program.wp_bind]
      refine Program.wp_mono (handleOneWith_leaves true haction) ?_
      intro r u hleaves
      rcases r with x | _ | e
      · exact takes_one (hleaves.lands (by simp))
      · exact takes_one (hleaves.lands (by simp))
      · obtain ⟨⟨ts, hlands, htokens⟩, hactions⟩ := hleaves
        obtain ⟨rfl, hnext⟩ := eq_some_of_append_singleton htokens
        refine Program.wp_mono (ih (hactions e rfl).2) ?_
        rintro r u₁ ⟨n, rest, hsteps, hlands₁⟩
        refine ⟨n + 1, rest, ?_, hlands.trans hlands₁⟩
        rw [Function.iterate_succ_apply, advance_some]
        have hx : oracle.next t.view envelope.token = (u.view, some e.token) :=
          Prod.ext hlands.view.symm hnext
        rw [hx]
        exact hsteps

end Entry

end ActionEventHandler

end PrismAgent
