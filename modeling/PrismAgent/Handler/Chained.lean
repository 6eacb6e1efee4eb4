import PrismAgent.Handler.Runnable
import PrismAgent.Sequential.Entry

/-!
# Which chained actions execute

An entry chains the action that `next_pending_action` chose, which is runnable in
the plan it was chosen from. The next entry loads the plan again, and only what the
API reports in between can make that another plan. `runnable_iff` is the condition
on a whole invocation; over the in-memory store it speaks of the delivered event
alone, by `chains_keepsChoice`.
-/

namespace PrismAgent

open Effect

/-- The plan once the action has been handled to its end: a PENDING action is COMPLETED
then, and behind another one the plan moves on as it is. -/
def AgentPlan.behind (plan : AgentPlan) (actionId : String) : AgentPlan :=
  match plan.getAction actionId with
  | some action =>
      if action.status = .pending then plan.replaceAction (action.withStatus .completed)
      else plan
  | none => plan

namespace AgentPlan

variable (plan : AgentPlan) (actionId : String)

@[simp] theorem behind_planId : (plan.behind actionId).planId = plan.planId := by
  unfold behind
  split
  · split <;> rfl
  · rfl

@[simp] theorem behind_workspaceId : (plan.behind actionId).workspaceId = plan.workspaceId := by
  unfold behind
  split
  · split <;> rfl
  · rfl

theorem behind_actionIds : (plan.behind actionId).actions.map (·.actionId) =
    plan.actions.map (·.actionId) := by
  unfold behind
  split
  · split
    · exact actionIds_replaceAction plan _
    · rfl
  · rfl

variable {plan} in
/-- With distinct ids an action is found under its id. -/
theorem getAction_of_mem (hnodup : (plan.actions.map (·.actionId)).Nodup)
    {action : PlannedAction} (hmem : action ∈ plan.actions) :
    plan.getAction action.actionId = some action := by
  obtain ⟨found, hfound⟩ : ∃ found, plan.getAction action.actionId = some found := by
    refine Option.isSome_iff_exists.1 (List.find?_isSome.2 ⟨action, hmem, ?_⟩)
    simp
  rw [hfound, List.inj_on_of_nodup_map hnodup (mem_of_getAction hfound) hmem
    (getAction_actionId hfound)]

end AgentPlan

namespace ActionEventHandler

variable {σ : Type} [StateStore σ]

/-- The store and the API give a chained action in the plan it was chosen from, which
is the plan of `envelope` with the action of `envelope` behind it. -/
def KeepsChoice (env : Env) (w : World σ) (envelope next : EventEnvelope) (w' : World σ) : Prop :=
  ∀ planId actionId plan, envelope.event.kind = .agentAction planId actionId →
    loadPlan env w envelope planId = some plan →
    (plan.actions.map (·.actionId)).Nodup ∧
      loadPlan env w' next plan.planId = some (plan.behind actionId)

/-- `P` holds at every action chained inline by an invocation, with the entry before
it: `P envelope w next w'` where `envelope`, handled from `w`, chained `next` in `w'`. -/
def Chains (env : Env) (P : EventEnvelope → World σ → EventEnvelope → World σ → Prop) :
    ℕ → EventEnvelope → World σ → Prop
  | 0, _, _ => True
  | budget + 1, envelope, w =>
      ∀ next, (env.sem.exec (handleOne true envelope) w).1 = .ok (some next) →
        P envelope w next (env.sem.exec (handleOne true envelope) w).2 ∧
          Chains env P budget next (env.sem.exec (handleOne true envelope) w).2

theorem Chains.mono {env : Env} {P Q : EventEnvelope → World σ → EventEnvelope → World σ → Prop}
    {budget : ℕ} {envelope : EventEnvelope} {w : World σ} (h : Chains env P budget envelope w)
    (hPQ : ∀ before u next t, P before u next t → Q before u next t) :
    Chains env Q budget envelope w := by
  induction budget generalizing envelope w with
  | zero => trivial
  | succ budget ih =>
      intro next hchained
      obtain ⟨hP, hrest⟩ := h next hchained
      exact ⟨hPQ _ _ _ _ hP, ih hrest⟩

/-- What is chained asks for the next action of `plan`. -/
def ChainsNext (plan : AgentPlan) (chained : Option EventEnvelope) : Prop :=
  ∀ e, chained = some e → AsksForNext plan e

section Choice

/-- Any calls, with any answers. -/
def anyCalls : Contract Call Call.Answer Exc := { calls := fun _ => True }

theorem announces_anyCalls : Announces anyCalls :=
  ⟨trivial, fun _ => trivial, fun _ => trivial, fun _ _ _ _ _ => trivial⟩

theorem chainsNext_none (plan : AgentPlan) : ChainsNext plan none := by
  rintro _ ⟨⟩

variable (inline : Bool) (d : Delivery)

/-- Before a program that chains for `plan` anything may be called. -/
theorem bind_chainsNext {α : Type} {plan : AgentPlan} {p : App α}
    {f : α → App (Option EventEnvelope)}
    (hf : ∀ a, (f a).Respects anyCalls (ChainsNext plan)) :
    (p >>= f).Respects anyCalls (ChainsNext plan) :=
  .bind (Program.onlyCalls_true p) fun a _ => hf a

theorem settleExecution_chainsNext (answer : Except Exc ToolResult) :
    (settleExecution inline d answer).Respects anyCalls
      (ChainsNext (d.planWith .completed)) := by
  cases answer with
  | error exc => exact bind_chainsNext fun _ => chainsNext_none _
  | ok result =>
      refine bind_chainsNext fun _ => bind_chainsNext fun _ => ?_
      split
      · refine bind_chainsNext fun _ => bind_chainsNext fun _ => bind_chainsNext fun _ => ?_
        refine bind_chainsNext fun _ => bind_chainsNext fun _ => ?_
        exact announces_anyCalls.enqueueNextAction inline d.envelope _ fun _ _ => trivial
      · exact bind_chainsNext fun _ => chainsNext_none _

/-- A decision chains the next action of the plan with its action COMPLETED. -/
theorem decideAction_chainsNext :
    (decideAction inline d).Respects anyCalls (ChainsNext (d.planWith .completed)) := by
  refine bind_chainsNext fun _ => bind_chainsNext fun validation => bind_chainsNext fun _ => ?_
  unfold actOn
  split
  · exact bind_chainsNext fun _ => chainsNext_none _
  · exact bind_chainsNext fun _ => chainsNext_none _
  · exact bind_chainsNext fun _ => chainsNext_none _
  · refine bind_chainsNext fun _ => bind_chainsNext fun _ => bind_chainsNext fun _ => ?_
    exact bind_chainsNext fun answer => settleExecution_chainsNext inline d answer

variable (env : Env) {inline}

/-- What a program that chains for `plan` chains asks for its next action. -/
theorem wp_chainsNext {plan : AgentPlan} {p : App (Option EventEnvelope)} {w : World σ}
    (hp : p.Respects anyCalls (ChainsNext plan)) :
    p.wp env.sem.step (fun r _ => ∀ next, r = .ok (some next) → AsksForNext plan next) w := by
  refine Program.wp_mono (Program.wp_of_respects (I := fun _ => True)
    (fun _ _ _ _ _ _ _ => ⟨trivial, trivial⟩) hp trivial) ?_
  rintro r t ⟨-, h⟩ next rfl
  exact h _ rfl next rfl

/-- The plan that the handler moves on in. -/
theorem behind_of_getAction {plan : AgentPlan} {action : PlannedAction} {actionId : String}
    (h : plan.getAction actionId = some action) :
    plan.behind actionId = if action.status = .pending then
      plan.replaceAction (action.withStatus .completed) else plan := by
  unfold AgentPlan.behind
  rw [h]

/-- Acting on a selection chains the next action of the plan with the selected action
behind it. -/
theorem actOnSelection_chainsNext (envelope : EventEnvelope) {plan : AgentPlan}
    {actionId : String} {selection : Selection} (h : selection.On plan actionId) :
    (actOnSelection inline envelope selection).Respects anyCalls
      (ChainsNext (plan.behind actionId)) := by
  cases selection with
  | notPending plan' action =>
      obtain ⟨rfl, haction, hpending⟩ := h
      rw [behind_of_getAction haction, if_neg hpending]
      exact announces_anyCalls.skipAction inline envelope plan' action fun _ _ => trivial
  | duplicate d => exact bind_chainsNext fun _ => chainsNext_none _
  | selected d =>
      obtain ⟨rfl, haction, hpending⟩ := h
      rw [behind_of_getAction haction, if_pos hpending]
      exact decideAction_chainsNext inline d

/-- An entry chains the next action of the loaded plan with the action of the event
behind it. -/
theorem handleOne_chains (inline : Bool) (envelope : EventEnvelope) (w : World σ) :
    (handleOne inline envelope).wp env.sem.step (fun r _ => ∀ next, r = .ok (some next) →
      ∃ planId actionId plan, envelope.event.kind = .agentAction planId actionId ∧
        loadPlan env w envelope planId = some plan ∧
        AsksForNext (plan.behind actionId) next) w := by
  unfold handleOne
  split
  next planId actionId hkind =>
    unfold handleAction
    rw [Program.wp_bind]
    refine Program.wp_mono (selectAction_spec env planId actionId) ?_
    rintro r t ⟨-, h⟩
    cases r with
    | error x => rintro _ ⟨⟩
    | ok selection =>
        obtain ⟨plan, hplan, hon⟩ := h selection rfl
        refine Program.wp_mono (wp_chainsNext env (actOnSelection_chainsNext envelope hon)) ?_
        intro r t hr next hnext
        exact ⟨planId, actionId, plan, hkind, hplan, hr next hnext⟩
  next => rintro _ ⟨⟩

/-- Chained in the plan it was chosen from, an action is runnable. -/
theorem asksForRunnable_of_chained {envelope next : EventEnvelope} {w t : World σ}
    (hchained : (env.sem.exec (handleOne true envelope) w).1 = .ok (some next))
    (hkeeps : KeepsChoice env w envelope next t) : AsksForRunnable env t next := by
  have hchains := handleOne_chains env true envelope w
  rw [Program.wp_step_iff] at hchains
  obtain ⟨before, actionId, plan, hkind, hplan, action, hnext, hasks, -⟩ := hchains next hchained
  obtain ⟨hnodup, hload⟩ := hkeeps before actionId plan hkind hplan
  obtain ⟨hstatus, hmem, -, hdepends⟩ := AgentPlan.nextPendingAction_eq_some hnext
  intro planId' actionId' d hd
  obtain ⟨rfl, rfl⟩ := EventKind.agentAction.inj (hasks.symm.trans hd.kind)
  rw [AgentPlan.behind_planId] at hd
  have hdplan : d.plan = plan.behind actionId := Option.some.inj (hd.plan.symm.trans hload)
  have hdaction : d.action = action := by
    refine Option.some.inj (hd.action.symm.trans ?_)
    rw [hdplan]
    refine AgentPlan.getAction_of_mem ?_ hmem
    rw [AgentPlan.behind_actionIds]
    exact hnodup
  rw [hdplan, hdaction]
  refine ⟨fun hcancelled => ?_, fun _ => ⟨hstatus, hdepends⟩⟩
  rw [hcancelled] at hstatus
  cases hstatus

/-- An invocation executes runnable actions only, and leaves CANCELLED plans CANCELLED,
exactly when its event asks for a runnable action, if for any, and every action chained
inline is still a runnable one where the store or the API no longer gives the plan it was
chosen from. -/
theorem runnable_iff (budget : ℕ) (envelope : EventEnvelope) (w : World σ) :
    Entries env (RunsRunnable env) budget envelope w ↔
      AsksForRunnable env w envelope ∧
        Chains env (fun before u next t =>
          ¬ KeepsChoice env u before next t → AsksForRunnable env t next) budget envelope w := by
  induction budget generalizing envelope w with
  | zero => simpa [Entries, Chains] using runsRunnable_iff env false envelope w
  | succ budget ih =>
      refine and_congr (runsRunnable_iff env true envelope w) ?_
      refine forall_congr' fun next => forall_congr' fun hchained => ?_
      refine (ih next _).trans (and_congr_left fun _ => ⟨fun h _ => h, fun h => ?_⟩)
      by_cases hkeeps : KeepsChoice env w envelope next
          (env.sem.exec (handleOne true envelope) w).2
      · exact asksForRunnable_of_chained env hchained hkeeps
      · exact h hkeeps

end Choice

section InMemory

variable (env : Env) {envelope : EventEnvelope} {w t : World MemoryStateStore}

/-- Every plan is stored under its own workspace and id, and its actions have distinct
ids. -/
def PlansPlaced (w : World MemoryStateStore) : Prop :=
  ∀ workspaceId planId plan, w.store.plans (workspaceId, planId) = some plan →
    plan.workspaceId = workspaceId ∧ plan.planId = planId ∧
      (plan.actions.map (·.actionId)).Nodup

/-- Saving plans whose actions have distinct ids keeps the plans in their places. -/
theorem PlansPlaced.moves (h : PlansPlaced w) {plans : List AgentPlan}
    {executions : List Execution} {events : List EventEnvelope}
    (hmoves : Moves w t plans executions events)
    (hplans : ∀ p ∈ plans, (p.actions.map (·.actionId)).Nodup) : PlansPlaced t := by
  unfold PlansPlaced at h ⊢
  rw [hmoves.table]
  generalize w.store.plans = table at h
  clear hmoves
  induction plans generalizing table with
  | nil => exact h
  | cons p plans ih =>
      refine ih (fun q hq => hplans q (List.mem_cons_of_mem _ hq)) _ ?_
      intro workspaceId planId plan hplan
      dsimp only at hplan
      by_cases hkey : (workspaceId, planId) = (p.workspaceId, p.planId)
      · rw [hkey, Function.update_self] at hplan
        cases hplan
        obtain ⟨rfl, rfl⟩ := Prod.mk.inj hkey
        exact ⟨rfl, rfl, hplans p List.mem_cons_self⟩
      · rw [Function.update_of_ne hkey] at hplan
        exact h workspaceId planId plan hplan

/-- A decision saves its plan with the action in other statuses, at last in the one the
action is left in. -/
theorem Ending.saves {d : Delivery} {status : ActionStatus} {plans : List AgentPlan}
    {executions : List Execution} (h : Ending d status plans executions) :
    (∃ front, plans = front ++ [d.planWith status]) ∧
      ∀ p ∈ plans, p.actions.map (·.actionId) = d.plan.actions.map (·.actionId) := by
  have hids : ∀ status, (d.planWith status).actions.map (·.actionId) =
      d.plan.actions.map (·.actionId) := fun _ => AgentPlan.actionIds_replaceAction _ _
  cases h <;> first
    | exact ⟨⟨[], rfl⟩, by simp [hids]⟩
    | exact ⟨⟨[d.planWith .running], rfl⟩, by simp [hids]⟩

/-- Over the in-memory store a chained action is asked for in the plan it was chosen
from. -/
theorem handleOne_keepsChoice (inline : Bool) (h : PlansPlaced w) :
    (handleOne inline envelope).wp env.sem.step (fun r t => PlansPlaced t ∧
      ∀ next, r = .ok (some next) → KeepsChoice env w envelope next t) w := by
  unfold handleOne
  split
  next planId actionId hkind =>
    cases hplan : w.store.getPlan envelope.event.workspaceId planId with
    | none =>
        unfold handleAction selectAction
        rw [Program.wp_bind, Program.wp_bind, Program.wp_perform_step]
        change Program.andThen _ _ _ (.ok (w.store.getPlan envelope.event.workspaceId planId)) _
        rw [hplan]
        refine ⟨h, ?_⟩
        rintro _ ⟨⟩
    | some plan =>
        obtain ⟨hworkspace, hplanId, hnodup⟩ := h _ _ _ hplan
        have hkeeps : ∀ next t, AsksForNext (plan.behind actionId) next →
            t.store.plans (plan.workspaceId, plan.planId) = some (plan.behind actionId) →
            KeepsChoice env w envelope next t := by
          rintro next t ⟨action, -, -, hnext⟩ hstored planId' actionId' plan' hkind' hplan'
          obtain ⟨rfl, rfl⟩ := EventKind.agentAction.inj (hkind.symm.trans hkind')
          obtain rfl : plan = plan' := Option.some.inj (hplan.symm.trans hplan')
          refine ⟨hnodup, ?_⟩
          rw [AgentPlan.behind_workspaceId] at hnext
          change t.store.plans (next.event.workspaceId, plan.planId) = _
          rw [hnext, hstored]
        refine Program.wp_mono (handleAction_spec env inline hplan) ?_
        rintro r t (⟨events, hmoves, -, hchained⟩ |
          ⟨d, rfl, haction, hpending, w₁, hw₁, status, plans, executions, events, hending,
            hmoves, -, hchained⟩)
        · refine ⟨h.moves hmoves (by simp), fun next hnext => ?_⟩
          obtain ⟨hasks, action, haction, hpending⟩ := hchained next hnext
          have hbehind : plan.behind actionId = plan := by
            rw [behind_of_getAction haction, if_neg hpending]
          refine hkeeps next t (hbehind.symm ▸ hasks) ?_
          rw [hmoves.table, hbehind, hworkspace, hplanId]
          exact hplan
        · obtain ⟨⟨front, hfront⟩, hids⟩ := hending.saves
          have hmoved := hw₁.trans hmoves
          refine ⟨h.moves hmoved fun p hp => ?_, fun next hnext => ?_⟩
          · rw [hids p hp]
            exact hnodup
          · obtain ⟨rfl, hasks⟩ := hchained next hnext
            have hbehind : d.plan.behind actionId = d.planWith .completed := by
              rw [behind_of_getAction haction, if_pos hpending]
              rfl
            refine hkeeps next t (hbehind.symm ▸ hasks) ?_
            rw [hmoved.table, hbehind, List.nil_append, hfront, List.foldl_append]
            exact Function.update_self _ _ _
  next =>
    refine ⟨h, ?_⟩
    rintro _ ⟨⟩

/-- Over the in-memory store every chained action is asked for in the plan it was chosen
from. -/
theorem chains_keepsChoice (budget : ℕ) (envelope : EventEnvelope)
    {w : World MemoryStateStore} (h : PlansPlaced w) :
    Chains env (fun before u next t => KeepsChoice env u before next t) budget envelope w := by
  induction budget generalizing envelope w with
  | zero => trivial
  | succ budget ih =>
      intro next hchained
      have hkeeps : (handleOne true envelope).wp env.sem.step _ w :=
        handleOne_keepsChoice env true h
      rw [Program.wp_step_iff] at hkeeps
      exact ⟨hkeeps.2 next hchained, ih next hkeeps.1⟩

end InMemory

section Cancelled

def cancelledAction : PlannedAction :=
  { actionId := "a"
    planId := "run"
    actionType := "notify"
    toolName := "notify"
    instruction := ""
    idempotencyKey := "run:notify:1" }

def cancelledPlan : AgentPlan :=
  { planId := "run"
    sourceEventId := "event"
    workspaceId := "ws"
    projectId := none
    goal := ""
    promptId := "prompt"
    promptVersion := "1"
    actions := [cancelledAction]
    contextSnapshotRef := "snapshot" }

/-- The API reports every run as cancelled. -/
def cancelledEnv : Env :=
  { Env.sample { tools := { tools := [("notify", { id := "notify", version := "1" })] } }
      cancelledPlan with
    stateApi := fun _ =>
      { fetchRunState := fun _ _ _ => { runStatus := some "cancelled" }
        uuid5 := fun raw => raw } }

def cancelledEnvelope : EventEnvelope :=
  .wrap (agentActionEvent "event" "ws" none "run" "a" none {})

def cancelledContext : ContextSnapshot :=
  { snapshotId := "snapshot"
    workspaceId := "ws"
    workflowId := "workflow"
    context :=
      { workspaceId := "ws"
        projectId := none
        sourceEvent := cancelledEnvelope
        workflowId := "workflow" } }

/-- The plan as it was saved before the run was cancelled. -/
def cancelledWorld : World PrismApiStateStore where
  store :=
    { fallbackStore := (({} : MemoryStateStore).savePlan cancelledPlan).saveContextSnapshot
        cancelledContext }

/-- An action event in flight when its run is cancelled executes its tool. -/
theorem cancelled_executes :
    ¬ Entries cancelledEnv (RunsRunnable cancelledEnv) INLINE_ACTION_CHAIN_BUDGET
      cancelledEnvelope cancelledWorld := by
  intro h
  have hall : ((cancelledEnv.sem.exec (handleOne true cancelledEnvelope)
      cancelledWorld).2.executions.all fun x => !x.plan.status.stopped) = true := by
    rw [List.all_eq_true]
    intro x hx
    simp [(h.1.1 x hx).1]
  revert hall
  decide

/-- A second action, which waits for the first. -/
def chainedAction : PlannedAction :=
  { cancelledAction with
    actionId := "b"
    dependsOn := ["a"]
    idempotencyKey := "run:notify:2" }

def chainedPlan : AgentPlan :=
  { cancelledPlan with actions := [cancelledAction, chainedAction] }

def chainedWorld : World MemoryStateStore where
  store := (({} : MemoryStateStore).savePlan chainedPlan).saveContextSnapshot cancelledContext

theorem plansPlaced_chainedWorld : PlansPlaced chainedWorld := by
  intro workspaceId planId plan hplan
  by_cases hkey : (workspaceId, planId) = ("ws", "run")
  · rw [hkey] at hplan
    obtain rfl : chainedPlan = plan := Option.some.inj hplan
    obtain ⟨rfl, rfl⟩ := Prod.mk.inj hkey
    exact ⟨rfl, rfl, by decide⟩
  · have hnone : chainedWorld.store.plans (workspaceId, planId) = none :=
      Function.update_of_ne hkey _ _
    cases hnone.symm.trans hplan

/-- The event asks for the first action, which is runnable. -/
theorem asksForRunnable_chainedWorld (env : Env) :
    AsksForRunnable env chainedWorld cancelledEnvelope := by
  intro planId actionId d hd
  obtain ⟨rfl, rfl⟩ := EventKind.agentAction.inj hd.kind
  have hplan : chainedPlan = d.plan := Option.some.inj hd.plan
  have haction : cancelledAction = d.action := by
    have h := hd.action
    rw [← hplan] at h
    exact Option.some.inj h
  rw [← hplan, ← haction]
  exact ⟨by decide, fun _ => by decide⟩

/-- An action event of a plan of two actions executes both, each when it is runnable. -/
theorem runnable_iff_sample :
    Entries (Env.sample cancelledEnv.registries chainedPlan)
        (RunsRunnable (Env.sample cancelledEnv.registries chainedPlan))
        INLINE_ACTION_CHAIN_BUDGET cancelledEnvelope chainedWorld ∧
      ((Env.sample cancelledEnv.registries chainedPlan).sem.exec
        (handle INLINE_ACTION_CHAIN_BUDGET cancelledEnvelope)
        chainedWorld).2.executions.map (·.action.actionId) = ["a", "b"] := by
  refine ⟨(runnable_iff _ _ _ _).2 ⟨asksForRunnable_chainedWorld _, ?_⟩, by decide⟩
  refine (chains_keepsChoice _ _ _ plansPlaced_chainedWorld).mono ?_
  exact fun _ _ _ _ hkeeps hdisturbed => absurd hkeeps hdisturbed

end Cancelled

end ActionEventHandler

end PrismAgent
