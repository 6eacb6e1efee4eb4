import PrismAgent.Recovery.Branches
import PrismAgent.Safety.Execution

/-!
# Redelivery recovers

The next action, the entry and the invocation under faults, and from them the run of an
event: deliveries that raise and are not interrupted, and one that returns.
-/

namespace PrismAgent

open Effect

/-- A recoverable state in which nothing is left to do. -/
theorem Recoverable.recovered {key : String × String} {actionId : String} {q : AgentPlan}
    {w : World MemoryStateStore} {log : List Call} (h : Recoverable key actionId q w)
    (hnext : ∀ next, q.nextPendingAction = some next → Continued q next.actionId log)
    (hsettled : q.isSubplan = true → q.status = .completed → ∃ e ∈ w.queue, q.SettledBy e)
    (hcompleted : q.isSubplan = false → q.status = .completed →
      .sync (.runCompletedById q.workspaceId (ActionEventHandler.apiRunId q)) ∈ log) :
    Recovered key actionId q w log := by
  refine ⟨h.located, h.stored, h.not_running, fun hsubplan hstopped => ?_, hnext, hcompleted⟩
  rcases hstopped with hstopped | hhalted
  · exact hsettled hsubplan hstopped
  · exact h.settled hsubplan (.inl hhalted)

/-- A recoverable state in which the next action has been chained or enqueued. -/
theorem Recoverable.recovered_of_next {key : String × String} {actionId : String} {q : AgentPlan}
    {w : World MemoryStateStore} {log : List Call} {next : PlannedAction}
    (h : Recoverable key actionId q w) (hnext : q.nextPendingAction = some next)
    (hcontinued : Continued q next.actionId log) : Recovered key actionId q w log := by
  obtain ⟨hlive, -⟩ := AgentPlan.live_of_nextPendingAction hnext
  refine h.recovered (fun next' hnext' => ?_) (fun _ hcontra => absurd hcontra hlive)
    fun _ hcontra => absurd hcontra hlive
  rw [hnext] at hnext'
  rw [← Option.some.inj hnext']
  exact hcontinued

namespace ActionEventHandler

variable {key : String × String} {actionId : String} {q : AgentPlan} (env : Env)
  {faults : FaultScript Exc} {s : Logged Call (World MemoryStateStore)}

section Next

variable (envelope : EventEnvelope)

theorem recoverable_keep (w : World MemoryStateStore) (_log : List Call) (call : Call)
    (hcall : Quiet call) (h : Recoverable key actionId q w) :
    Recoverable key actionId q (env.sem call w).2 :=
  h.sem env hcall.1 hcall.2

/-- The same with a key that is not consumed. -/
theorem fresh_keep {idempotencyKey : String} (w : World MemoryStateStore) (log : List Call)
    (call : Call) (hcall : Quiet call)
    (h : Recoverable key actionId q w ∧ idempotencyKey ∉ w.store.idempotencyKeys) :
    Recoverable key actionId q (env.sem call w).2 ∧
      idempotencyKey ∉ (env.sem call w).2.store.idempotencyKeys := by
  rw [idempotencyKeys_sem env hcall.2]
  exact ⟨recoverable_keep env w log call hcall h.1, h.2⟩

theorem ends_error_of_recoverable (x : Exc) (t : Logged Call (World MemoryStateStore))
    (h : Recoverable key actionId q t.state) : Ends key actionId (.error x) t :=
  fun _ => ⟨q, h⟩

/-- A trace at the end. -/
theorem wp_trace_end {I : World MemoryStateStore → List Call → Prop}
    (hI : ∀ w log call, Quiet call → I w log → I (env.sem call w).2 (log ++ [call]))
    (hs : I s.state s.log) (event : RuntimeEvent) (eventName : String)
    (planId id : Option String) :
    (PrismAgent.trace event eventName planId id).wp (env.sem.inject faults).step
      (fun _ t => I t.state t.log) s :=
  Program.wp_inject_of_onlyCalls (P := Quiet) hI (announces_quiet.trace _ _ _ _) hs

/-- No action is left: the node is settled or the run is completed. -/
theorem finishPlan_ends (h : Recoverable key actionId q s.state)
    (hnext : q.nextPendingAction = none) :
    (finishPlan envelope q).wp (env.sem.inject faults).step
      (fun r t => Ends key actionId (r.map fun _ => none) t) s := by
  have hnone : ∀ next, q.nextPendingAction = some next → ∀ log, Continued q next.actionId log := by
    rw [hnext]
    rintro next ⟨⟩
  unfold finishPlan
  split
  next hcompleted =>
    split
    next hsubplan =>
      refine Program.wp_inject_bind (P := Quiet) (recoverable_keep env)
        (announces_quiet.trace _ _ _ _) h ends_error_of_recoverable fun _ t ht => ?_
      refine Program.wp_mono (settleSubplan_spec env
        (I := fun w _ => Recoverable key actionId q w) (recoverable_keep env) ht envelope q _ _) ?_
      intro r u hu
      cases r with
      | error x => exact ends_error_of_recoverable x u hu.1
      | ok a =>
          refine fun _ => ⟨q, hu.1.recovered (fun next hnext => hnone next hnext _)
            (fun _ _ => hu.2 a rfl) fun hcontra _ => ?_⟩
          rw [hsubplan] at hcontra
          cases hcontra
    next hsubplan =>
      have hquiet : Quiet (.sync (.runCompletedById q.workspaceId (apiRunId q))) := by
        simp [Quiet, Call.writes]
      have hdone := recoverable_keep env s.state s.log _ hquiet h
      refine Program.wp_inject_perform (fun x _ => ends_error_of_recoverable x _ h)
        (fun x _ => ends_error_of_recoverable x _ hdone) fun _ n _ => ?_
      refine Program.wp_mono (wp_trace_end env (I := fun w log => Recoverable key actionId q w ∧
        .sync (.runCompletedById q.workspaceId (apiRunId q)) ∈ log)
        (fun w log call hcall hw =>
          ⟨recoverable_keep env w log call hcall hw.1, List.mem_append_left _ hw.2⟩)
        ⟨hdone, List.mem_append_right _ (List.mem_singleton_self _)⟩ _ _ _ _) ?_
      intro r u hu
      cases r with
      | error x => exact ends_error_of_recoverable x u hu.1
      | ok a =>
          exact fun _ => ⟨q, hu.1.recovered (fun next hnext => hnone next hnext _)
            (fun hcontra _ => absurd hcontra hsubplan) fun _ _ => hu.2⟩
  next hcompleted =>
    refine Program.wp_mono (wp_trace_end env (I := fun w _ => Recoverable key actionId q w)
      (recoverable_keep env) h _ _ _ _) ?_
    intro r u hu
    cases r with
    | error x => exact ends_error_of_recoverable x u hu
    | ok a =>
        exact fun _ => ⟨q, hu.recovered (fun next hnext => hnone next hnext _)
          (fun _ hcontra => absurd hcontra hcompleted) fun _ hcontra => absurd hcontra hcompleted⟩

/-- The plan moves on behind a finished action. -/
theorem enqueueNextAction_ends (inline : Bool) (h : Recoverable key actionId q s.state)
    (hfinished : ∀ a, q.getAction actionId = some a → a.status.finished = true) :
    (enqueueNextAction inline envelope q).wp (env.sem.inject faults).step
      (Ends key actionId) s := by
  unfold enqueueNextAction
  split
  next hnext => exact wp_return_none env (finishPlan_ends env envelope h hnext)
  next next hnext =>
    refine Program.wp_inject_bind (P := Quiet) (recoverable_keep env) ?_ h
      ends_error_of_recoverable fun eventId t ht => ?_
    · exact (Program.onlyCalls_perform _).2 (by simp [Quiet, Call.writes])
    have hquiet_trace : ∀ traceEvent, Quiet (.appendTraceEvent traceEvent) := by
      simp [Quiet, Call.writes]
    have hquiet_enqueue : ∀ e, Quiet (.enqueue e) := by simp [Quiet, Call.writes]
    dsimp only
    split
    · refine Program.wp_inject_perform (fun x _ => ends_error_of_recoverable x _ ht)
        (fun x _ =>
          ends_error_of_recoverable x _ (ht.sem env (hquiet_trace _).1 (hquiet_trace _).2))
        fun _ n _ => ?_
      refine ⟨q, next, ht.sem env (hquiet_trace _).1 (hquiet_trace _).2, hnext,
        .inl ⟨_, List.mem_append_right _ (List.mem_singleton_self _), rfl, rfl, rfl⟩, hfinished,
        ?_, ?_⟩
      · rw [h.located]
        rfl
      · rw [h.located]
        rfl
    · refine Program.wp_inject_perform (fun x _ => ends_error_of_recoverable x _ ht)
        (fun x _ => ends_error_of_recoverable x _
          (ht.sem env (hquiet_enqueue _).1 (hquiet_enqueue _).2)) fun _ n _ => ?_
      refine wp_return_none env (Program.wp_mono (wp_trace_end env
        (I := fun w log => Recoverable key actionId q w ∧ Continued q next.actionId log)
        (fun w log call hcall hw =>
          ⟨recoverable_keep env w log call hcall hw.1, hw.2.append call⟩)
        ⟨ht.sem env (hquiet_enqueue _).1 (hquiet_enqueue _).2,
          .inr ⟨_, List.mem_append_right _ (List.mem_singleton_self _), rfl⟩⟩ _ _ _ _) ?_)
      intro r u hu
      cases r with
      | error x => exact ends_error_of_recoverable x u hu.1
      | ok a => exact fun _ => ⟨q, hu.1.recovered_of_next hnext hu.2⟩

end Next

section Execute

variable {d : Delivery} {validation : ValidationResult}

/-- The action is COMPLETED and the plan moves on. -/
theorem commit_ends (inline : Bool) (h : Turn key actionId d)
    (hsettled : d.plan.HaltsSettled s.state.queue)
    (hbefore : ∀ x n, Ends key actionId (.error x) ⟨s.state, s.log, n⟩) :
    (commit inline d validation).wp (env.sem.inject faults).step (Ends key actionId) s := by
  have herror : ∀ (x : Exc) (t : Logged Call (World MemoryStateStore)),
      Saved key d .completed t.state t.log → Ends key actionId (.error x) t :=
    fun x t ht => ends_error_of_saved h ht (by simp) x
  have hfinished : ∀ a, (d.planWith .completed).getAction actionId = some a →
      a.status.finished = true := by
    intro a ha
    rcases h.getAction_planWith .completed ha with ⟨-, rfl⟩ | ⟨-, hfinished⟩
    · rfl
    · exact hfinished
  have hbind : ∀ {p : App Unit} {f : Unit → App (Option EventEnvelope)}
      {t : Logged Call (World MemoryStateStore)}, p.OnlyCalls SavesNothing →
      Saved key d .completed t.state t.log →
      (∀ u, Saved key d .completed u.state u.log →
        (f ()).wp (env.sem.inject faults).step (Ends key actionId) u) →
      (p >>= f).wp (env.sem.inject faults).step (Ends key actionId) t := by
    intro p f t hp ht hf
    exact Program.wp_inject_bind (P := SavesNothing) (I := Saved key d .completed)
      (fun _ _ _ hcall hw => hw.sem env hcall) hp ht herror fun _ u hu => hf u hu
  refine wp_save env h hsettled hbefore (fun x t ht _ => herror x t ht) fun t ht _ => ?_
  refine hbind (announces_savesNothing.report d _ _ _) ht fun t ht => ?_
  refine hbind (onlyCalls_savesNothing (by simp [Call.writes])) ht fun t ht => ?_
  refine hbind (enqueueEvents_savesNothing _) ht fun t ht => ?_
  refine hbind (announces_savesNothing.trace _ _ _ _) ht fun t ht => ?_
  have hrecoverable : Recoverable key actionId (d.planWith .completed) t.state := by
    refine ⟨h.located, ht.stored, fun a ha => not_running_of_saved h (by simp) ha,
      fun a ha hpassed => ?_, fun hsubplan hhalts => ?_⟩
    · have hstatus := hfinished a ha
      rcases hpassed with hhalts | ⟨hpending, -⟩
      · revert hhalts hstatus
        cases a.status <;> simp [ActionStatus.halts, ActionStatus.finished]
      · rw [hpending] at hstatus
        cases hstatus
    · exact ht.settled hsubplan
        ((d.halts_planWith hhalts).resolve_left (by simp [ActionStatus.halts]))
  exact enqueueNextAction_ends env d.envelope inline hrecoverable hfinished

/-- While the tool's answer is acted upon, the RUNNING plan is the saved one. -/
theorem settleExecution_ends (inline : Bool) (h : Turn key actionId d)
    (hs : Saved key d .running s.state s.log)
    (hkey : d.action.idempotencyKey ∉ s.state.store.idempotencyKeys)
    (answer : Except Exc ToolResult) :
    (settleExecution inline d answer).wp (env.sem.inject faults).step (Ends key actionId) s := by
  have herror : ∀ (x : Exc) (t : Logged Call (World MemoryStateStore)),
      Saved key d .running t.state t.log ∧
        t.state.store.idempotencyKeys = s.state.store.idempotencyKeys →
          Ends key actionId (.error x) t :=
    fun x t ht => ends_error_of_saved h ht.1 (by simp) x
  have hquiet : ∀ w log call, Quiet call → (Saved key d .running w log ∧
      w.store.idempotencyKeys = s.state.store.idempotencyKeys) →
      Saved key d .running (env.sem call w).2 (log ++ [call]) ∧
        (env.sem call w).2.store.idempotencyKeys = s.state.store.idempotencyKeys :=
    fun w log call hcall hw =>
      ⟨hw.1.sem env hcall.1, (idempotencyKeys_sem env hcall.2).trans hw.2⟩
  cases answer with
  | error exc =>
      exact wp_return_none env
        (executionError_ends env h hs.settled exc fun x n => herror x _ ⟨hs, rfl⟩)
  | ok result =>
      refine Program.wp_inject_bind (P := Quiet) hquiet ?_ ⟨hs, rfl⟩ herror fun _ t ht => ?_
      · exact (Program.onlyCalls_perform _).2 (by simp [Quiet, Call.writes])
      refine Program.wp_inject_bind (P := Quiet) hquiet (announces_quiet.trace _ _ _ _) ht herror
        fun _ t ht => ?_
      split
      · exact commit_ends env inline h ht.1.settled fun x n => herror x _ ht
      · refine wp_return_none env ?_
        unfold settleFailure
        split
        · refine retry_ends env h ht.1.settled ?_ fun x n => herror x _ ht
          rw [ht.2]
          exact hkey
        · exact failAction_ends env h ht.1.settled fun x n => herror x _ ht

/-- The delivered plan is recoverable, and the key of the action is not consumed. -/
theorem execute_ends (inline : Bool) (h : Turn key actionId d)
    (hs : Recoverable key actionId d.plan s.state)
    (hkey : d.action.idempotencyKey ∉ s.state.store.idempotencyKeys) :
    (execute inline d).wp (env.sem.inject faults).step (Ends key actionId) s := by
  refine Program.wp_inject_bind (P := Quiet) (fresh_keep env)
    (announces_quiet.report d _ _ _) ⟨hs, hkey⟩ (fun x t ht => ends_error_of_recoverable x t ht.1)
    fun _ t ht => ?_
  have herror : ∀ (x : Exc) (u : Logged Call (World MemoryStateStore)),
      Saved key d .running u.state u.log ∧
        u.state.store.idempotencyKeys = t.state.store.idempotencyKeys →
          Ends key actionId (.error x) u :=
    fun x u hu => ends_error_of_saved h hu.1 (by simp) x
  have hquiet : ∀ w log call, Quiet call → (Saved key d .running w log ∧
      w.store.idempotencyKeys = t.state.store.idempotencyKeys) →
      Saved key d .running (env.sem call w).2 (log ++ [call]) ∧
        (env.sem call w).2.store.idempotencyKeys = t.state.store.idempotencyKeys :=
    fun w log call hcall hw =>
      ⟨hw.1.sem env hcall.1, (idempotencyKeys_sem env hcall.2).trans hw.2⟩
  refine wp_save env h ht.1.settled (fun x n => ends_error_of_recoverable x _ ht.1)
    (fun x u hu hkeys => herror x u ⟨hu, hkeys⟩) fun u hu hkeys => ?_
  refine Program.wp_inject_bind (P := Quiet) hquiet (announces_quiet.trace _ _ _ _) ⟨hu, hkeys⟩
    herror fun _ u hu => ?_
  refine Program.wp_inject_bind (P := Quiet) hquiet ?_ hu herror fun answer u hu => ?_
  · refine Program.OnlyCalls.attempt ((Program.onlyCalls_perform _).2 ?_)
    simp [Quiet, Call.writes]
  · refine settleExecution_ends env inline h hu.1 ?_ answer
    rw [hu.2]
    exact ht.2

/-- A decision ends recovered, chains, or leaves a recoverable state unless it is
interrupted. -/
theorem decideAction_ends (inline : Bool) (h : Turn key actionId d)
    (hs : Recoverable key actionId d.plan s.state)
    (hkey : d.action.idempotencyKey ∉ s.state.store.idempotencyKeys) :
    (decideAction inline d).wp (env.sem.inject faults).step (Ends key actionId) s := by
  have hvalidate : (Validator.validateBeforeExecution d.action d.context).OnlyCalls Quiet :=
    validateBeforeExecution_onlyCalls (by simp [Quiet, Call.writes])
      (fun _ _ _ => by simp [Quiet, Call.writes]) _ _
  have herror : ∀ (x : Exc) (t : Logged Call (World MemoryStateStore)),
      Recoverable key actionId d.plan t.state ∧
        d.action.idempotencyKey ∉ t.state.store.idempotencyKeys →
          Ends key actionId (.error x) t := fun x t ht => ends_error_of_recoverable x t ht.1
  refine Program.wp_inject_bind (P := Quiet) (fresh_keep env) (announces_quiet.trace _ _ _ _)
    ⟨hs, hkey⟩ herror fun _ t ht => ?_
  refine Program.wp_inject_bind (P := Quiet) (fresh_keep env) hvalidate ht herror
    fun validation t ht => ?_
  refine Program.wp_inject_bind (P := Quiet) (fresh_keep env) (announces_quiet.trace _ _ _ _)
    ht herror fun _ t ht => ?_
  have hbefore : ∀ x n, Ends key actionId (.error x) ⟨t.state, t.log, n⟩ :=
    fun x n => herror x _ ht
  unfold actOn
  split
  · exact wp_return_none env (requireApproval_ends env h ht.1)
  · exact wp_return_none env (rejectStale_ends env h ht.1.settled hbefore)
  · exact wp_return_none env (rejectInvalid_ends env h ht.1.settled hbefore)
  · exact execute_ends env inline h ht.1 ht.2

end Execute

section Entry

variable {p : AgentPlan} {id : String}

/-- The entry is for the delivered action, or for the next one, which was chained behind
it. -/
structure Entering (key : String × String) (actionId : String) (p : AgentPlan) (id : String)
    (w : World MemoryStateStore) (log : List Call) : Prop where
  recoverable : Recoverable key actionId p w
  turn : id = actionId ∨ (∃ next, p.nextPendingAction = some next ∧ next.actionId = id ∧
    Continued p id log) ∧ ∀ a, p.getAction actionId = some a → a.status.finished = true

theorem entering_keep (w : World MemoryStateStore) (log : List Call) (call : Call)
    (hcall : Quiet call) (h : Entering key actionId p id w log) :
    Entering key actionId p id (env.sem call w).2 (log ++ [call]) := by
  refine ⟨recoverable_keep env w log call hcall h.recoverable, h.turn.imp_right ?_⟩
  rintro ⟨⟨next, hnext, hid, hcontinued⟩, hfinished⟩
  exact ⟨⟨next, hnext, hid, hcontinued.append call⟩, hfinished⟩

/-- A selected action is decided on in its turn. -/
theorem Entering.turn_of_selected {w : World MemoryStateStore} {log : List Call} {d : Delivery}
    (h : Entering key actionId d.plan id w log) (hfound : d.plan.getAction id = some d.action)
    (hpending : d.action.status = .pending) : Turn key actionId d := by
  have hid := AgentPlan.getAction_actionId hfound
  refine ⟨h.recoverable.located, hid.symm ▸ hfound, hpending, ?_⟩
  exact h.turn.imp hid.trans fun hchained => hchained.2

/-- An entry that neither moves on nor decides leaves nothing undone: it is for an action
behind which nothing is left, or for a chained one. -/
theorem Entering.recovered {w : World MemoryStateStore} {log : List Call} {action : PlannedAction}
    (h : Entering key actionId p id w log) (hfound : p.getAction id = some action)
    (hpassed : action.status = .running ∨ action.status.halts = true ∨
      action.status = .pending ∧ action.idempotencyKey ∈ w.store.idempotencyKeys) :
    Recovered key actionId p w log := by
  rcases h.turn with rfl | ⟨⟨next, hnext, rfl, hcontinued⟩, -⟩
  · obtain ⟨hnone, hcompleted⟩ := h.recoverable.passed action hfound
      (hpassed.resolve_left (h.recoverable.not_running action hfound))
    refine h.recoverable.recovered (fun next hnext => ?_)
      (fun _ hcontra => absurd hcontra hcompleted)
      fun _ hcontra => absurd hcontra hcompleted
    rw [hnone] at hnext
    cases hnext
  · exact h.recoverable.recovered_of_next hnext hcontinued

/-- A trace at the end of an entry that leaves nothing undone. -/
theorem wp_trace_entering (h : Entering key actionId p id s.state s.log) {action : PlannedAction}
    (hfound : p.getAction id = some action)
    (hpassed : action.status = .running ∨ action.status.halts = true ∨
      action.status = .pending ∧ action.idempotencyKey ∈ s.state.store.idempotencyKeys)
    (event : RuntimeEvent) (eventName : String) (planId actionId' : Option String) :
    (PrismAgent.trace event eventName planId actionId').wp (env.sem.inject faults).step
      (fun r t => Ends key actionId (r.map fun _ => none) t) s := by
  refine Program.wp_mono (wp_trace_end env (I := fun w log => Entering key actionId p id w log ∧
    w.store.idempotencyKeys = s.state.store.idempotencyKeys)
    (fun w log call hcall hw => ⟨entering_keep env w log call hcall hw.1,
      (idempotencyKeys_sem env hcall.2).trans hw.2⟩) ⟨h, rfl⟩ event eventName planId actionId') ?_
  rintro r t ⟨ht, hkeys⟩
  cases r with
  | error x => exact ends_error_of_recoverable x t ht.recoverable
  | ok a =>
      rw [← hkeys] at hpassed
      exact fun _ => ⟨p, ht.recovered hfound hpassed⟩

theorem skipAction_ends (inline : Bool) (envelope : EventEnvelope) {action : PlannedAction}
    (h : Entering key actionId p id s.state s.log) (hfound : p.getAction id = some action)
    (hpending : action.status ≠ .pending) :
    (skipAction inline envelope p action).wp (env.sem.inject faults).step
      (Ends key actionId) s := by
  refine Program.wp_inject_bind (P := Quiet) (entering_keep env) (announces_quiet.trace _ _ _ _)
    h (fun x t ht => ends_error_of_recoverable x t ht.recoverable) fun _ t ht => ?_
  split
  next hstatus =>
    refine enqueueNextAction_ends env envelope inline ht.recoverable fun a ha => ?_
    rcases ht.turn with rfl | ⟨-, hfinished⟩
    · rw [hfound] at ha
      rw [← Option.some.inj ha]
      rcases hstatus with hstatus | hstatus <;> simp [hstatus, ActionStatus.finished]
    · exact hfinished a ha
  next hstatus =>
    refine fun _ => ⟨p, ht.recovered hfound ?_⟩
    revert hpending hstatus
    cases action.status <;> simp [ActionStatus.halts]

/-- What the checks find is an action of the stored plan. -/
def Selects (p : AgentPlan) (id : String) (w : World MemoryStateStore) : Selection → Prop
  | .notPending plan action => plan = p ∧ p.getAction id = some action ∧ action.status ≠ .pending
  | .duplicate d => d.plan = p ∧ p.getAction id = some d.action ∧ d.action.status = .pending ∧
      d.action.idempotencyKey ∈ w.store.idempotencyKeys
  | .selected d => d.plan = p ∧ p.getAction id = some d.action ∧ d.action.status = .pending ∧
      d.action.idempotencyKey ∉ w.store.idempotencyKeys

theorem selectAction_selects (envelope : EventEnvelope)
    (hworkspace : envelope.event.workspaceId = key.1)
    (h : Entering key actionId p id s.state s.log) :
    (selectAction envelope key.2 id).wp (env.sem.inject faults).step
      (fun r t => Entering key actionId p id t.state t.log ∧
        ∀ selection, r = .ok selection → Selects p id t.state selection) s := by
  have hquiet : ∀ call : Call, call.writes = none → Quiet call := by
    intro call hwrites
    simp [Quiet, hwrites]
  unfold selectAction
  refine Program.wp_inject_perform (fun x _ => ⟨h, by rintro _ ⟨⟩⟩)
    (fun x _ => ⟨entering_keep env _ _ _ (hquiet _ rfl) h, by rintro _ ⟨⟩⟩) fun plan n hplan => ?_
  have ht := entering_keep env _ _ _ (hquiet (.getPlan envelope.event.workspaceId key.2) rfl) h
  have hstored : plan = some p := by
    have hget : (.ok (s.state.store.getPlan envelope.event.workspaceId key.2) :
      Except Exc (Option AgentPlan)) = .ok plan := hplan
    rw [← Except.ok.inj hget, hworkspace]
    exact h.recoverable.stored
  subst hstored
  dsimp only
  split
  next => exact ⟨ht, by rintro _ ⟨⟩⟩
  next action hfound =>
    split
    next hpending =>
      refine ⟨ht, ?_⟩
      rintro _ ⟨⟩
      exact ⟨rfl, hfound, hpending⟩
    next hpending =>
      refine Program.wp_inject_perform (fun x _ => ⟨ht, by rintro _ ⟨⟩⟩)
        (fun x _ => ⟨entering_keep env _ _ _ (hquiet _ rfl) ht, by rintro _ ⟨⟩⟩)
        fun snapshot n _ => ?_
      have hu := entering_keep env _ _ _ (hquiet (.getContextSnapshot envelope.event.workspaceId
        p.contextSnapshotRef) rfl) ht
      split
      next => exact ⟨hu, by rintro _ ⟨⟩⟩
      next snapshot =>
        refine Program.wp_inject_perform (fun x _ => ⟨hu, by rintro _ ⟨⟩⟩)
          (fun x _ => ⟨entering_keep env _ _ _ (hquiet _ rfl) hu, by rintro _ ⟨⟩⟩)
          fun consumed n hconsumed => ?_
        have hv := entering_keep env _ _ _ (hquiet (.checkIdempotencyKey action.idempotencyKey)
          rfl) hu
        cases consumed with
        | true =>
            refine ⟨hv, ?_⟩
            rintro _ ⟨⟩
            refine ⟨rfl, hfound, not_not.1 hpending, ?_⟩
            exact of_decide_eq_true (Except.ok.inj hconsumed)
        | false =>
            refine ⟨hv, ?_⟩
            rintro _ ⟨⟩
            refine ⟨rfl, hfound, not_not.1 hpending, ?_⟩
            exact of_decide_eq_false (Except.ok.inj hconsumed)

/-- An entry for the delivered action or for one chained behind it. -/
theorem handleOne_ends (inline : Bool) (envelope : EventEnvelope)
    (hworkspace : envelope.event.workspaceId = key.1)
    (hkind : envelope.event.kind = .agentAction key.2 id)
    (h : Entering key actionId p id s.state s.log) :
    (handleOne inline envelope).wp (env.sem.inject faults).step (Ends key actionId) s := by
  unfold handleOne
  rw [hkind]
  dsimp only
  unfold handleAction
  rw [Program.wp_bind]
  refine Program.wp_mono (selectAction_selects env envelope hworkspace h) ?_
  rintro r t ⟨ht, hselects⟩
  rcases r with x | ⟨plan, action⟩ | d | d
  · exact ends_error_of_recoverable x t ht.recoverable
  · obtain ⟨rfl, hfound, hpending⟩ := hselects _ rfl
    exact skipAction_ends env inline envelope ht hfound hpending
  · obtain ⟨rfl, hfound, hpending, hconsumed⟩ := hselects _ rfl
    exact wp_return_none env (wp_trace_entering env ht hfound (.inr (.inr ⟨hpending, hconsumed⟩))
      _ _ _ _)
  · obtain ⟨rfl, hfound, hpending, hkey⟩ := hselects _ rfl
    exact decideAction_ends env inline (ht.turn_of_selected hfound hpending) ht.recoverable hkey

/-- An invocation: its entry and those it chains. -/
theorem handle_ends (budget : ℕ) (envelope : EventEnvelope)
    (hworkspace : envelope.event.workspaceId = key.1)
    (hkind : envelope.event.kind = .agentAction key.2 id)
    (h : Entering key actionId p id s.state s.log) :
    (handle budget envelope).wp (env.sem.inject faults).step
      (fun r t => Ends key actionId (r.map fun _ => none) t) s := by
  induction budget generalizing envelope p id s with
  | zero =>
      rw [handle, Program.wp_bind]
      refine Program.wp_mono (handleOne_ends env false envelope hworkspace hkind h) ?_
      rintro (x | _ | next) t ht
      · exact ht
      · exact ht
      · obtain ⟨q, action, hrecoverable, hnext, hcontinued, -, -, -⟩ := ht
        exact fun _ => ⟨q, hrecoverable.recovered_of_next hnext hcontinued⟩
  | succ budget ih =>
      rw [handle, Program.wp_bind]
      refine Program.wp_mono (handleOne_ends env true envelope hworkspace hkind h) ?_
      rintro (x | _ | next) t ht
      · exact ht
      · exact ht
      · obtain ⟨q, action, hrecoverable, hnext, hcontinued, hfinished, hkind', hworkspace'⟩ := ht
        exact ih next hworkspace' hkind'
          ⟨hrecoverable, .inr ⟨⟨action, hnext, rfl, hcontinued⟩, hfinished⟩⟩

end Entry

end ActionEventHandler

section Redelivery

variable (env : Env) {envelope : EventEnvelope} {key : String × String} {actionId : String}

/-- One delivery in a recoverable state. -/
theorem Attempt.run_ends (attempt : Attempt) {p : AgentPlan} {w : World MemoryStateStore}
    (hworkspace : envelope.event.workspaceId = key.1)
    (hkind : envelope.event.kind = .agentAction key.2 actionId)
    (h : Recoverable key actionId p w) :
    ActionEventHandler.Ends key actionId ((attempt.run env envelope w).1.map fun _ => none)
      (attempt.run env envelope w).2 := by
  have hwp : (ActionEventHandler.handle attempt.budget envelope).wp
      (env.sem.inject attempt.faults).step _ { state := w } :=
    ActionEventHandler.handle_ends env attempt.budget envelope hworkspace hkind ⟨h, .inl rfl⟩
  rw [Program.wp_step_iff] at hwp
  exact hwp

/-- Deliveries that raise without being interrupted keep the state recoverable. -/
theorem Aborted.recoverable {w w' : World MemoryStateStore} {attempts : List Attempt}
    (haborted : Aborted env envelope (fun t => ¬ Interrupted actionId t) w attempts w')
    (hworkspace : envelope.event.workspaceId = key.1)
    (hkind : envelope.event.kind = .agentAction key.2 actionId)
    (h : ∃ p, Recoverable key actionId p w) : ∃ p, Recoverable key actionId p w' := by
  induction haborted with
  | nil w => exact h
  | @cons w w' attempt attempts x hraises hend hrest ih =>
      obtain ⟨p, hp⟩ := h
      have hends := attempt.run_ends env hworkspace hkind hp
      rw [hraises] at hends
      exact ih (hends hend)

/-- Redelivery recovers: an event for any action of the plan is delivered, with faults
anywhere, until a delivery returns. If the first delivery starts in a recoverable state,
none of those that raise is interrupted between the save of RUNNING and that of the
outcome, or between the save of a halted sub-plan and its settling, and the one that
returns does not end with a retry out of turn, it has left nothing undone. -/
theorem redelivery_recovers {p : AgentPlan} {w w' : World MemoryStateStore}
    {attempts : List Attempt} {last : Attempt}
    (hworkspace : envelope.event.workspaceId = p.workspaceId)
    (hkind : envelope.event.kind = .agentAction p.planId actionId)
    (h : Recoverable (p.workspaceId, p.planId) actionId p w)
    (haborted : Aborted env envelope (fun t => ¬ Interrupted actionId t) w attempts w')
    (hreturns : (last.run env envelope w').1 = .ok ())
    (hturn : ¬ RetriesOutOfTurn (last.run env envelope w').2.log) :
    ∃ q, Recovered (p.workspaceId, p.planId) actionId q (last.run env envelope w').2.state
      (last.run env envelope w').2.log := by
  obtain ⟨q, hq⟩ := haborted.recoverable env hworkspace hkind ⟨p, h⟩
  have hends := last.run_ends env hworkspace hkind hq
  rw [hreturns] at hends
  exact hends hturn

/-- An event for a PENDING action of a plan that does not halt finds a recoverable
state. -/
theorem recoverable_of_pending {p : AgentPlan} {action : PlannedAction}
    {w : World MemoryStateStore} (hstored : w.store.plans (p.workspaceId, p.planId) = some p)
    (hlive : ¬ p.Halts) (hfound : p.getAction actionId = some action)
    (hpending : action.status = .pending)
    (hkey : action.idempotencyKey ∉ w.store.idempotencyKeys) :
    Recoverable (p.workspaceId, p.planId) actionId p w := by
  have hsame : ∀ a, p.getAction actionId = some a → a = action := fun a ha =>
    Option.some.inj (ha.symm.trans hfound)
  refine ⟨rfl, hstored, fun a ha => ?_, fun a ha hpassed => ?_, fun _ hhalts => absurd hhalts hlive⟩
  · rw [hsame a ha, hpending]
    simp
  · rw [hsame a ha, hpending] at hpassed
    rcases hpassed with hhalts | ⟨-, hconsumed⟩
    · cases hhalts
    · exact absurd hconsumed hkey

/-- The world after the seed has been planned. -/
def sampleWorld : World MemoryStateStore :=
  deliver sampleEnv { store := {} } { envelope := sampleSeed }

/-- The plan of the seed. -/
def samplePlan : AgentPlan := (sampleWorld.store.plans ("ws", "run")).getD sampleProposal

/-- A delivery in which call number `n` raises before it takes place. -/
def sampleAbort (n : ℕ) : Attempt :=
  { faults := fun i => if i = n then some (.before (.valueError "unavailable")) else none }

/-- A delivery without faults. -/
def sampleAttempt : Attempt := { faults := fun _ => none }

/-- A call that puts no retry on the queue. -/
def Call.firstTry : Call → Bool
  | .enqueue e => e.attempt = 0
  | _ => true

/-- The event is for `b`, while `a` is the next action of the plan. The report of RUNNING
raises, nothing has been saved, and the event is delivered again: `b` is COMPLETED and `a`
is chained. -/
theorem redelivery_recovers_sample :
    ∃ q, Recovered ("ws", "run") "b" q
      (sampleAttempt.run sampleEnv (sampleActionEvent "b")
        ((sampleAbort 6).run sampleEnv (sampleActionEvent "b") sampleWorld).2.state).2.state
      (sampleAttempt.run sampleEnv (sampleActionEvent "b")
        ((sampleAbort 6).run sampleEnv (sampleActionEvent "b") sampleWorld).2.state).2.log := by
  have hrecoverable : Recoverable ("ws", "run") "b" samplePlan sampleWorld := by
    obtain ⟨action, hfound, hpending⟩ : ∃ action, samplePlan.getAction "b" = some action ∧
        action.status = .pending := ⟨_, rfl, rfl⟩
    refine recoverable_of_pending rfl ?_ hfound hpending (Finset.notMem_empty _)
    unfold AgentPlan.Halts
    decide
  have hworkspace : (sampleActionEvent "b").event.workspaceId = samplePlan.workspaceId := rfl
  refine redelivery_recovers sampleEnv hworkspace rfl hrecoverable
    (.cons (x := .valueError "unavailable") rfl ?_ (.nil _)) rfl ?_
  · rintro ⟨plan, after, ⟨⟨before, hlog⟩, -⟩, -⟩
    have hsaves : ∀ call ∈ ((sampleAbort 6).run sampleEnv (sampleActionEvent "b")
        sampleWorld).2.log, call.writes ≠ some .plans := by
      decide
    refine hsaves (.updatePlan plan) ?_ rfl
    rw [hlog]
    exact List.mem_append_right _ List.mem_cons_self
  · rintro ⟨plan, after, e, actionId, next, ⟨⟨before, hlog⟩, -⟩, he, hattempt, -⟩
    have hfirst : ((sampleAttempt.run sampleEnv (sampleActionEvent "b") ((sampleAbort 6).run
        sampleEnv (sampleActionEvent "b") sampleWorld).2.state).2.log.all Call.firstTry) =
          true := by
      decide
    rw [hlog, List.all_append, Bool.and_eq_true, List.all_eq_true, List.all_eq_true] at hfirst
    have hzero := hfirst.2 _ (List.mem_cons_of_mem _ he)
    exact hattempt.ne' (of_decide_eq_true hzero)

/-- The result cannot be saved once the tool has run: redelivered, the event finds its
action RUNNING and leaves it so. -/
theorem redelivery_leaves_running :
    ((sampleAbort 10).run sampleEnv sampleRequested sampleWorld).1 =
        .error (.valueError "unavailable") ∧
      (sampleAttempt.run sampleEnv sampleRequested
        ((sampleAbort 10).run sampleEnv sampleRequested sampleWorld).2.state).1 = .ok () ∧
      ¬ ∃ q, Recovered ("ws", "run") "a" q
        (sampleAttempt.run sampleEnv sampleRequested
          ((sampleAbort 10).run sampleEnv sampleRequested sampleWorld).2.state).2.state
        (sampleAttempt.run sampleEnv sampleRequested
          ((sampleAbort 10).run sampleEnv sampleRequested sampleWorld).2.state).2.log := by
  refine ⟨rfl, rfl, ?_⟩
  rintro ⟨q, hq⟩
  have hstatus : (((sampleAttempt.run sampleEnv sampleRequested
      ((sampleAbort 10).run sampleEnv sampleRequested sampleWorld).2.state).2.state.store.plans
        ("ws", "run")).bind (·.getAction "a")).map (·.status) = some .running := by
    decide
  rw [hq.stored] at hstatus
  obtain ⟨a, ha, hrunning⟩ := Option.map_eq_some_iff.1 hstatus
  exact hq.not_running a ha hrunning

end Redelivery

end PrismAgent
