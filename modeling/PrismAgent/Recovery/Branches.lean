import PrismAgent.Recovery.Saves

/-!
# The branches of the handler under faults

How every branch of an entry ends, wherever a fault strikes: an entry that returns has
recovered or chains the next action, and one that raises leaves a recoverable state
unless it was interrupted.
-/

namespace PrismAgent

open Effect

namespace ActionEventHandler

variable {key : String × String} {actionId : String} {d : Delivery}

/-- How an entry ends: it raises, it is done, or it chains the next action. It may be
interrupted, and it may end with a retry out of turn. -/
def Ends (key : String × String) (actionId : String) :
    Except Exc (Option EventEnvelope) → Logged Call (World MemoryStateStore) → Prop
  | .error _, t => ¬ Interrupted actionId t → ∃ q, Recoverable key actionId q t.state
  | .ok none, t => ¬ RetriesOutOfTurn t.log → ∃ q, Recovered key actionId q t.state t.log
  | .ok (some e), t => ∃ q next, Recoverable key actionId q t.state ∧
      q.nextPendingAction = some next ∧ Continued q next.actionId t.log ∧
      (∀ a, q.getAction actionId = some a → a.status.finished = true) ∧
      e.event.kind = .agentAction key.2 next.actionId ∧ e.event.workspaceId = key.1

/-- A call that saves no plan. -/
def SavesNothing (call : Call) : Prop := call.writes ≠ some .plans

/-- A call that saves no plan and consumes no key. -/
def Quiet (call : Call) : Prop :=
  call.writes ≠ some .plans ∧ call.writes ≠ some .idempotencyKeys

theorem announces_quiet : Announces { calls := Quiet } := by
  constructor <;> intros <;> simp [Quiet, Call.writes]

theorem announces_savesNothing : Announces { calls := SavesNothing } := by
  constructor <;> intros <;> simp [SavesNothing, Call.writes]

section Saves

variable {w : World MemoryStateStore} {log : List Call} {s t : Logged Call (World MemoryStateStore)}
  {status : ActionStatus}

/-- Behind a save, the entry may be interrupted anywhere. -/
theorem ends_error_of_saved (h : Turn key actionId d)
    (hsaved : Saved key d status t.state t.log)
    (hkey : status = .pending → d.action.actionId = actionId →
      d.action.idempotencyKey ∉ t.state.store.idempotencyKeys) (x : Exc) :
    Ends key actionId (.error x) t := fun hend => ⟨_, hsaved.recoverable h hkey hend⟩

/-- The action is not left RUNNING by a save of another status. -/
theorem not_running_of_saved (h : Turn key actionId d) (hstatus : status ≠ .running)
    {a : PlannedAction} (ha : (d.planWith status).getAction actionId = some a) :
    a.status ≠ .running := by
  rcases h.getAction_planWith status ha with ⟨-, rfl⟩ | ⟨-, hfinished⟩
  · exact hstatus
  · intro hrunning
    rw [hrunning] at hfinished
    cases hfinished

/-- The action halted the plan and the node, if there is one, is settled. -/
theorem recovered_of_halts (h : Turn key actionId d)
    (hsaved : Saved key d status w log) (hhalts : status.halts = true)
    (hsettled : d.plan.isSubplan = true → ∃ e ∈ w.queue, d.plan.SettledBy e) :
    Recovered key actionId (d.planWith status) w log := by
  have hrunning : status ≠ .running := by
    rintro rfl
    cases hhalts
  have hfinished : status.finished = false := by
    revert hhalts
    cases status <;> simp [ActionStatus.halts, ActionStatus.finished]
  refine ⟨h.located, hsaved.stored, fun a ha => not_running_of_saved h hrunning ha,
    fun hsubplan _ => hsettled hsubplan, fun next hnext => ?_,
    fun _ hcompleted => absurd hcompleted (h.not_completed hfinished)⟩
  rw [h.next_of_halts hhalts] at hnext
  cases hnext

end Saves

section Branches

variable (env : Env) {faults : FaultScript Exc} {s : Logged Call (World MemoryStateStore)}
  {status : ActionStatus} {validation : ValidationResult}

/-- A branch that chains nothing. -/
theorem wp_return_none {p : App Unit}
    (hp : p.wp (env.sem.inject faults).step
      (fun r t => Ends key actionId (r.map fun _ => none) t) s) :
    (p >>= fun _ => (pure none : App (Option EventEnvelope))).wp (env.sem.inject faults).step
      (Ends key actionId) s := by
  rw [Program.wp_bind]
  refine Program.wp_mono hp fun r t ht => ?_
  cases r <;> exact ht

/-- The save takes place or it does not; behind it the plan is the saved one. -/
theorem wp_save {β : Type} {f : Unit → App β} {Q : Except Exc β → Logged Call _ → Prop}
    (h : Turn key actionId d) (hsettled : d.plan.HaltsSettled s.state.queue)
    (hbefore : ∀ x n, Q (.error x) ⟨s.state, s.log, n⟩)
    (hafter : ∀ x t, Saved key d status t.state t.log →
      t.state.store.idempotencyKeys = s.state.store.idempotencyKeys → Q (.error x) t)
    (hf : ∀ t, Saved key d status t.state t.log →
      t.state.store.idempotencyKeys = s.state.store.idempotencyKeys →
        (f ()).wp (env.sem.inject faults).step Q t) :
    (d.save status >>= f).wp (env.sem.inject faults).step Q s := by
  have hsaved : Saved key d status (env.sem (.updatePlan (d.planWith status)) s.state).2
      (s.log ++ [.updatePlan (d.planWith status)]) := Saved.update env h.located hsettled
  apply Program.wp_inject_perform
  · exact hbefore
  · intro x n
    exact hafter x _ hsaved rfl
  · intro a n _
    exact hf _ hsaved rfl

/-- Settling a sub-plan enqueues the event, and calls nothing that `I` would not
survive. -/
theorem settleSubplan_spec {I : World MemoryStateStore → List Call → Prop}
    (hI : ∀ w log call, Quiet call → I w log → I (env.sem call w).2 (log ++ [call]))
    (hs : I s.state s.log) (envelope : EventEnvelope) (plan : AgentPlan) (status : String)
    (message : Option String) :
    (settleSubplan envelope plan status message).wp (env.sem.inject faults).step
      (fun r t => I t.state t.log ∧ ∀ u, r = .ok u → ∃ e ∈ t.state.queue, plan.SettledBy e) s := by
  unfold settleSubplan
  split
  next runId nodeId hrun hnode =>
    refine Program.wp_inject_bind (P := Quiet) hI ?_ hs (by simp) fun eventId t ht => ?_
    · exact (Program.onlyCalls_perform _).2 (by simp [Quiet, Call.writes])
    have hquiet : ∀ e, Quiet (.enqueue e) := by simp [Quiet, Call.writes]
    apply Program.wp_inject_perform
    · intro x n
      exact ⟨ht, by rintro u ⟨⟩⟩
    · intro x n
      exact ⟨hI _ _ _ (hquiet _) ht, by rintro u ⟨⟩⟩
    · intro _ n _
      have hkeep : ∀ w log call, Quiet call → (I w log ∧ ∃ e ∈ w.queue, plan.SettledBy e) →
          I (env.sem call w).2 (log ++ [call]) ∧
            ∃ e ∈ (env.sem call w).2.queue, plan.SettledBy e := by
        rintro w log call hcall ⟨hw, e, he, hsettles⟩
        exact ⟨hI w log call hcall hw, e, queue_subset_sem env he, hsettles⟩
      refine Program.wp_mono (Program.wp_inject_of_onlyCalls (P := Quiet)
        (I := fun w log => I w log ∧ ∃ e ∈ w.queue, plan.SettledBy e) hkeep
        (announces_quiet.trace _ _ _ _) ⟨hI _ _ _ (hquiet _) ht, _,
          List.mem_append_right _ (List.mem_singleton_self _), runId, nodeId, status, hrun, hnode,
          rfl⟩) ?_
      exact fun r t' ht' => ⟨ht'.1, fun _ _ => ht'.2⟩
  · exact ⟨hs, by rintro u ⟨⟩⟩

/-- The plan stays saved, and the end settles the node if there is one. -/
def SettlesNode (key : String × String) (d : Delivery) (status : ActionStatus)
    (r : Except Exc Unit) (t : Logged Call (World MemoryStateStore)) : Prop :=
  Saved key d status t.state t.log ∧
    ∀ a, r = .ok a → d.plan.isSubplan = true → ∃ e ∈ t.state.queue, d.plan.SettledBy e

theorem settleIfSubplan_spec (hs : Saved key d status s.state s.log) (text : String)
    (message : Option String) :
    (settleIfSubplan d text message).wp (env.sem.inject faults).step
      (SettlesNode key d status) s := by
  unfold settleIfSubplan
  split
  · refine Program.wp_mono (settleSubplan_spec env (I := Saved key d status)
      (fun w log call hcall hw => hw.sem env hcall.1) hs d.envelope d.plan text message) ?_
    exact fun r t ht => ⟨ht.1, fun u hu _ => ht.2 u hu⟩
  next hsubplan =>
    exact ⟨hs, fun u _ hcontra => absurd hcontra hsubplan⟩

/-- A branch that saves a status which halts the plan and then settles the node. -/
theorem wp_halt {rest : Unit → App Unit} (h : Turn key actionId d) (hhalts : status.halts = true)
    (hsettled : d.plan.HaltsSettled s.state.queue)
    (hbefore : ∀ x n, Ends key actionId (.error x) ⟨s.state, s.log, n⟩)
    (hrest : ∀ t, Saved key d status t.state t.log →
      (rest ()).wp (env.sem.inject faults).step (SettlesNode key d status) t) :
    (d.save status >>= rest).wp (env.sem.inject faults).step
      (fun r t => Ends key actionId (r.map fun _ => none) t) s := by
  have herror : ∀ x t, Saved key d status t.state t.log →
      Ends key actionId (.error x) t := by
    intro x t hsaved
    refine ends_error_of_saved h hsaved (fun hpending => ?_) x
    rw [hpending] at hhalts
    cases hhalts
  refine wp_save env h hsettled hbefore (fun x t hsaved _ => herror x t hsaved)
    fun t hsaved _ => ?_
  refine Program.wp_mono (hrest t hsaved) fun r u hu => ?_
  cases r with
  | error x => exact herror x u hu.1
  | ok a => exact fun _ => ⟨_, recovered_of_halts h hu.1 hhalts (hu.2 a rfl)⟩

/-- The part of a branch between the save and the end. -/
theorem wp_saved_bind {α : Type} {p : App α} {f : α → App Unit} (hp : p.OnlyCalls SavesNothing)
    (hs : Saved key d status s.state s.log)
    (hf : ∀ a t, Saved key d status t.state t.log →
      (f a).wp (env.sem.inject faults).step (SettlesNode key d status) t) :
    (p >>= f).wp (env.sem.inject faults).step (SettlesNode key d status) s :=
  Program.wp_inject_bind (P := SavesNothing) (I := Saved key d status)
    (fun _ _ _ hcall hw => hw.sem env hcall) hp hs (fun x t ht => ⟨ht, by rintro a ⟨⟩⟩) hf

/-- The end of a branch of a plan that has no node to settle. -/
theorem wp_saved_end {p : App Unit} (hp : p.OnlyCalls SavesNothing)
    (hs : Saved key d status s.state s.log) (hsubplan : ¬ d.plan.isSubplan = true) :
    p.wp (env.sem.inject faults).step (SettlesNode key d status) s := by
  refine Program.wp_mono (Program.wp_inject_of_onlyCalls (P := SavesNothing)
    (I := Saved key d status) (fun _ _ _ hcall hw => hw.sem env hcall) hp hs) ?_
  exact fun r t ht => ⟨ht, fun a _ hcontra => absurd hcontra hsubplan⟩

theorem onlyCalls_savesNothing {call : Call} (h : call.writes ≠ some .plans) :
    (PrismAgent.perform call).OnlyCalls SavesNothing :=
  (Program.onlyCalls_perform call).2 h

theorem enqueueEvents_savesNothing (envelopes : List EventEnvelope) :
    (enqueueEvents envelopes).OnlyCalls SavesNothing :=
  Announces.enqueueEvents envelopes fun _ _ => by simp [SavesNothing, Call.writes]

theorem requireApproval_ends (h : Turn key actionId d)
    (hs : Recoverable key actionId d.plan s.state) :
    (requireApproval d validation).wp (env.sem.inject faults).step
      (fun r t => Ends key actionId (r.map fun _ => none) t) s := by
  have hquiet : ∀ (w : World MemoryStateStore) (log : List Call) call, Quiet call →
      Recoverable key actionId d.plan w → Recoverable key actionId d.plan (env.sem call w).2 :=
    fun w log call hcall hw => hw.sem env hcall.1 hcall.2
  have herror : ∀ (x : Exc) (t : Logged Call (World MemoryStateStore)),
      Recoverable key actionId d.plan t.state → Ends key actionId (.error x) t :=
    fun x t ht _ => ⟨_, ht⟩
  refine Program.wp_inject_bind (P := Quiet) hquiet ?_ hs herror fun resultId t ht => ?_
  · exact (Program.onlyCalls_perform _).2 (by simp [Quiet, Call.writes])
  refine Program.wp_inject_bind (P := Quiet) hquiet ?_ ht herror fun _ t ht => ?_
  · exact (Program.onlyCalls_perform _).2 (by simp [Quiet, Call.writes])
  refine wp_halt env h rfl ht.settled (fun x n => herror x _ ht) fun t ht => ?_
  refine wp_saved_bind env (announces_savesNothing.report d _ _ _) ht fun _ t ht => ?_
  refine wp_saved_bind env (onlyCalls_savesNothing (by simp [Call.writes])) ht fun _ t ht => ?_
  refine wp_saved_bind env (enqueueEvents_savesNothing _) ht fun _ t ht => ?_
  refine wp_saved_bind env (announces_savesNothing.trace _ _ _ _) ht fun _ t ht => ?_
  exact settleIfSubplan_spec env ht _ _

theorem rejectStale_ends (h : Turn key actionId d)
    (hsettled : d.plan.HaltsSettled s.state.queue)
    (hbefore : ∀ x n, Ends key actionId (.error x) ⟨s.state, s.log, n⟩) :
    (rejectStale d validation).wp (env.sem.inject faults).step
      (fun r t => Ends key actionId (r.map fun _ => none) t) s := by
  refine wp_halt env h rfl hsettled hbefore fun t ht => ?_
  refine wp_saved_bind env (announces_savesNothing.report d _ _ _) ht fun _ t ht => ?_
  refine wp_saved_bind env (announces_savesNothing.trace _ _ _ _) ht fun _ t ht => ?_
  split
  · refine Program.wp_mono (settleSubplan_spec env (I := Saved key d .stale)
      (fun w log call hcall hw => hw.sem env hcall.1) ht d.envelope d.plan _ _) ?_
    exact fun r u hu => ⟨hu.1, fun a ha _ => hu.2 a ha⟩
  next hsubplan =>
    refine wp_saved_end env ?_ ht hsubplan
    refine .bind (onlyCalls_savesNothing (by simp [Call.writes])) fun eventId => ?_
    refine .bind (onlyCalls_savesNothing (by simp [Call.writes])) fun _ => ?_
    exact announces_savesNothing.trace _ _ _ _

theorem rejectInvalid_ends (h : Turn key actionId d)
    (hsettled : d.plan.HaltsSettled s.state.queue)
    (hbefore : ∀ x n, Ends key actionId (.error x) ⟨s.state, s.log, n⟩) :
    (rejectInvalid d validation).wp (env.sem.inject faults).step
      (fun r t => Ends key actionId (r.map fun _ => none) t) s := by
  refine wp_halt env h rfl hsettled hbefore fun t ht => ?_
  refine wp_saved_bind env (announces_savesNothing.report d _ _ _) ht fun _ t ht => ?_
  refine wp_saved_bind env (announces_savesNothing.trace _ _ _ _) ht fun _ t ht => ?_
  exact settleIfSubplan_spec env ht _ _

theorem failAction_ends (h : Turn key actionId d)
    (hsettled : d.plan.HaltsSettled s.state.queue)
    (hbefore : ∀ x n, Ends key actionId (.error x) ⟨s.state, s.log, n⟩) :
    (failAction d validation).wp (env.sem.inject faults).step
      (fun r t => Ends key actionId (r.map fun _ => none) t) s := by
  refine wp_halt env h rfl hsettled hbefore fun t ht => ?_
  refine wp_saved_bind env (announces_savesNothing.report d _ _ _) ht fun _ t ht => ?_
  refine wp_saved_bind env (announces_savesNothing.trace _ _ _ _) ht fun _ t ht => ?_
  exact settleIfSubplan_spec env ht _ _

theorem executionError_ends (h : Turn key actionId d)
    (hsettled : d.plan.HaltsSettled s.state.queue) (exc : Exc)
    (hbefore : ∀ x n, Ends key actionId (.error x) ⟨s.state, s.log, n⟩) :
    (executionError d exc).wp (env.sem.inject faults).step
      (fun r t => Ends key actionId (r.map fun _ => none) t) s := by
  refine wp_halt env h rfl hsettled hbefore fun t ht => ?_
  refine wp_saved_bind env (Program.OnlyCalls.attempt (announces_savesNothing.report d _ _ _)) ht
    fun _ t ht => ?_
  refine wp_saved_bind env (announces_savesNothing.trace _ _ _ _) ht fun _ t ht => ?_
  refine wp_saved_bind env (announces_savesNothing.trace _ _ _ _) ht fun _ t ht => ?_
  split
  · refine Program.wp_mono (settleSubplan_spec env (I := Saved key d .failed)
      (fun w log call hcall hw => hw.sem env hcall.1) ht d.envelope d.plan _ _) ?_
    exact fun r u hu => ⟨hu.1, fun a ha _ => hu.2 a ha⟩
  · exact ⟨ht, by rintro a ⟨⟩⟩

/-- Behind the save of PENDING an event for the action has been enqueued again. -/
def Rescheduled (d : Delivery) (log : List Call) : Prop :=
  ∃ after e, LastSaved log (d.planWith .pending) after ∧ .enqueue e ∈ after ∧ 0 < e.attempt ∧
    e.event.kind = .agentAction d.plan.planId d.action.actionId

theorem Rescheduled.append {log : List Call} (h : Rescheduled d log) {call : Call}
    (hcall : SavesNothing call) : Rescheduled d (log ++ [call]) := by
  obtain ⟨after, e, hlast, he, hattempt, hkind⟩ := h
  exact ⟨_, e, hlast.append hcall, List.mem_append_left _ he, hattempt, hkind⟩

/-- Back to PENDING with another event enqueued, the action has recovered, if it is the
next one. -/
theorem recovered_of_retry (h : Turn key actionId d) {w : World MemoryStateStore} {log : List Call}
    (hsaved : Saved key d .pending w log) (hrescheduled : Rescheduled d log)
    (hturn : ¬ RetriesOutOfTurn log) : Recovered key actionId (d.planWith .pending) w log := by
  obtain ⟨after, e, hlast, he, hattempt, hkind⟩ := hrescheduled
  have hunfinished : ActionStatus.pending.finished = false := rfl
  have hcompleted := h.not_completed hunfinished
  refine ⟨h.located, hsaved.stored, fun a ha => not_running_of_saved h (by simp) ha,
    fun hsubplan hstopped => ?_, fun next hnext => ?_, fun _ hcontra => absurd hcontra hcompleted⟩
  · have hhalts := d.halts_planWith (.inl (hstopped.resolve_left hcompleted))
    exact hsaved.settled hsubplan (hhalts.resolve_left (by simp [ActionStatus.halts]))
  · by_cases hid : next.actionId = d.action.actionId
    · obtain ⟨⟨before, rfl⟩, -⟩ := hlast
      rw [hid]
      exact .inr ⟨e, List.mem_append_right _ (List.mem_cons_of_mem _ he), hkind⟩
    · exact absurd ⟨_, after, e, _, next, hlast, he, hattempt, hkind, hnext, hid⟩ hturn

theorem retry_ends (h : Turn key actionId d)
    (hsettled : d.plan.HaltsSettled s.state.queue)
    (hkey : d.action.idempotencyKey ∉ s.state.store.idempotencyKeys)
    (hbefore : ∀ x n, Ends key actionId (.error x) ⟨s.state, s.log, n⟩) :
    (retry d validation).wp (env.sem.inject faults).step
      (fun r t => Ends key actionId (r.map fun _ => none) t) s := by
  have herror : ∀ (x : Exc) (t : Logged Call (World MemoryStateStore)),
      Saved key d .pending t.state t.log ∧
        t.state.store.idempotencyKeys = s.state.store.idempotencyKeys →
          Ends key actionId (.error x) t := by
    rintro x t ⟨ht, hkeys⟩
    refine ends_error_of_saved h ht (fun _ _ => ?_) x
    rw [hkeys]
    exact hkey
  have hquiet : ∀ w log call, Quiet call →
      (Saved key d .pending w log ∧
        w.store.idempotencyKeys = s.state.store.idempotencyKeys) →
      Saved key d .pending (env.sem call w).2 (log ++ [call]) ∧
        (env.sem call w).2.store.idempotencyKeys = s.state.store.idempotencyKeys :=
    fun w log call hcall hw =>
      ⟨hw.1.sem env hcall.1, (idempotencyKeys_sem env hcall.2).trans hw.2⟩
  refine wp_save env h hsettled hbefore (fun x t ht hkeys => herror x t ⟨ht, hkeys⟩)
    fun t ht hkeys => ?_
  refine Program.wp_inject_bind (P := Quiet) hquiet ?_ ⟨ht, hkeys⟩ herror fun eventId t ht => ?_
  · exact (Program.onlyCalls_perform _).2 (by simp [Quiet, Call.writes])
  have hquiet_enqueue : ∀ e, Quiet (.enqueue e) := by simp [Quiet, Call.writes]
  apply Program.wp_inject_perform
  · intro x n
    exact herror x _ ht
  · intro x n
    exact herror x _ (hquiet _ _ _ (hquiet_enqueue _) ht)
  · intro _ n _
    refine Program.wp_mono (Program.wp_inject_of_onlyCalls (P := Quiet)
      (I := fun w log => (Saved key d .pending w log ∧
        w.store.idempotencyKeys = s.state.store.idempotencyKeys) ∧ Rescheduled d log)
      (fun w log call hcall hw => ⟨hquiet w log call hcall hw.1, hw.2.append hcall.1⟩) ?_ ?_) ?_
    · exact .bind (announces_quiet.report d _ _ _) fun _ => announces_quiet.trace _ _ _ _
    · obtain ⟨after, hlast⟩ := ht.1.last
      exact ⟨hquiet _ _ _ (hquiet_enqueue _) ht, _, _, hlast.append (hquiet_enqueue _).1,
        List.mem_append_right _ (List.mem_singleton_self _), Nat.succ_pos _, rfl⟩
    · intro r t ht
      cases r with
      | error x => exact herror x t ht.1
      | ok a => exact fun hturn => ⟨_, recovered_of_retry h ht.1.1 ht.2 hturn⟩

end Branches

end ActionEventHandler

end PrismAgent
