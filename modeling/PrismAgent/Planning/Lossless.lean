import PrismAgent.Planning.Agent
import PrismAgent.Safety.Execution
import PrismAgent.Sequential.Order

/-!
# Planning loses no action

A created plan should list the proposed actions one by one and offer them in this
order while each is completed in turn. The plan tells its actions apart by their ids,
which the language model chooses: nothing is lost if and only if the ids are distinct.
-/

namespace PrismAgent

open Effect

namespace AgentPlan

/-- The plan after its first `k` actions were replaced by completed copies. -/
def afterCompleting (plan : AgentPlan) (k : ℕ) : AgentPlan :=
  (plan.actions.take k).foldl (fun q action => q.replaceAction (action.withStatus .completed))
    plan

/-- The first `k` actions are completed and the others as they were; the next one to run
is the action after them, and the plan is not completed before the last. -/
structure OffersNext (plan : AgentPlan) (k : ℕ) : Prop where
  actions : (plan.afterCompleting k).actions =
    (plan.actions.take k).map (·.withStatus .completed) ++ plan.actions.drop k
  next : (plan.afterCompleting k).nextPendingAction = plan.actions[k]?
  open_before_last : k < plan.actions.length → (plan.afterCompleting k).status ≠ .completed

end AgentPlan

/-- The action runs the proposed one: same tool, same instruction, and the input that the
proposal's typed fields give. -/
structure Realizes (loads : String → Option Json) (proposal action : PlannedAction) : Prop where
  toolName : action.toolName = proposal.toolName
  instruction : action.instruction = proposal.instruction
  input : action.input = (materialized loads proposal).input

/-- The plan lists the proposed actions and offers them one after the other. -/
structure NothingLost (loads : String → Option Json) (proposed plan : AgentPlan) : Prop where
  realized : List.Forall₂ (Realizes loads) proposed.actions plan.actions
  distinct : (plan.actions.map (·.actionId)).Nodup
  selectable : ∀ k ≤ plan.actions.length, plan.OffersNext k

namespace AgentPlan

theorem statusOf_eq_running {actions : List PlannedAction}
    (hall : ∀ a ∈ actions, a.status = .pending ∨ a.status = .completed)
    (hpending : ∃ a ∈ actions, a.status = .pending) : statusOf actions = .running := by
  obtain ⟨a, ha, hstatus⟩ := hpending
  have hopen : ¬ (actions.all fun a => a.status = .completed ∨ a.status = .skipped) = true := by
    rw [List.all_eq_true]
    intro hdone
    have := hdone a ha
    simp [hstatus] at this
  have hnone : ∀ status : ActionStatus, status ≠ .pending → status ≠ .completed →
      ¬ (actions.any fun a => a.status = status) = true := by
    intro status hp hc
    rw [List.any_eq_true]
    rintro ⟨b, hb, heq⟩
    obtain rfl : b.status = status := by simpa using heq
    rcases hall b hb with h | h
    · exact hp h
    · exact hc h
  unfold statusOf
  rw [if_neg hopen, if_neg (hnone .failed (by simp) (by simp)),
    if_neg (hnone .requiresApproval (by simp) (by simp)), if_neg (hnone .stale (by simp) (by simp))]

/-- What completing the actions in front leaves: a plan in order with the others as they
were, which runs while there are others. -/
theorem complete_front {plan : AgentPlan} {done todo : List PlannedAction} (h : plan.Orderly)
    (hlive : plan.status.stopped = false) (hpending : ∀ a ∈ plan.actions, a.status = .pending)
    (hsplit : plan.actions = done ++ todo) :
    let q := done.foldl (fun q action => q.replaceAction (action.withStatus .completed)) plan
    q.Orderly ∧ q.actions = done.map (·.withStatus .completed) ++ todo ∧
      (todo ≠ [] → q.status.stopped = false) := by
  induction done using List.reverseRecOn generalizing todo with
  | nil => exact ⟨h, by simpa using hsplit, fun _ => hlive⟩
  | append_singleton done action ih =>
      rw [List.append_assoc] at hsplit
      obtain ⟨horderly, hactions, -⟩ := ih hsplit
      rw [List.foldl_append]
      set q := done.foldl (fun q action => q.replaceAction (action.withStatus .completed)) plan
      have hfront : ∀ b ∈ done.map (·.withStatus .completed), b.status = .completed := by
        intro b hb
        obtain ⟨a, -, rfl⟩ := List.mem_map.1 hb
        rfl
      have hmem : ∀ a ∈ action :: todo, a.status = .pending := by
        intro a ha
        refine hpending a ?_
        rw [hsplit]
        exact List.mem_append_right _ ha
      have hreplaced := horderly.replaceAction_actions_eq hactions .completed
      refine ⟨?_, ?_, ?_⟩
      · exact horderly.settle hactions hfront (hmem action List.mem_cons_self) (.inr (.inl rfl))
      · rw [List.map_append, List.append_assoc]
        exact hreplaced
      · intro htodo
        obtain ⟨next, rest, rfl⟩ := List.exists_cons_of_ne_nil htodo
        have hrunning : statusOf (q.replaceAction (action.withStatus .completed)).actions =
            .running := by
          rw [hreplaced]
          apply statusOf_eq_running
          · intro a ha
            rcases List.mem_append.1 ha with ha | ha
            · exact .inr (hfront a ha)
            · rcases List.mem_cons.1 ha with rfl | ha
              · exact .inr rfl
              · exact .inl (hmem a (List.mem_cons_of_mem _ ha))
          · exact ⟨next, by simp, hmem next (by simp)⟩
        rw [List.foldl_cons, List.foldl_nil, replaceAction_status, hrunning]
        rfl

/-- A plan in order with nothing done yet offers its actions one after the other. -/
theorem Orderly.offersNext {plan : AgentPlan} (h : plan.Orderly)
    (hlive : plan.status.stopped = false) (hpending : ∀ a ∈ plan.actions, a.status = .pending)
    {k : ℕ} (hk : k ≤ plan.actions.length) : plan.OffersNext k := by
  obtain ⟨horderly, hactions, hrunning⟩ :=
    complete_front h hlive hpending (List.take_append_drop k plan.actions).symm
  refine ⟨hactions, ?_, ?_⟩
  · rcases hk.lt_or_eq with hlt | rfl
    · have hdrop : plan.actions.drop k = plan.actions[k] :: plan.actions.drop (k + 1) :=
        List.drop_eq_getElem_cons hlt
      rw [List.getElem?_eq_getElem hlt]
      apply horderly.nextPendingAction_eq (hrunning (by simpa using hlt))
        (hactions.trans (by rw [hdrop]))
      · intro b hb
        obtain ⟨a, -, rfl⟩ := List.mem_map.1 hb
        rfl
      · exact hpending _ (List.getElem_mem hlt)
    · have hnone : ∀ next, (plan.afterCompleting plan.actions.length).nextPendingAction ≠
          some next := by
        intro next hnext
        obtain ⟨-, hmem, hstatus, -⟩ := nextPendingAction_eq_some hnext
        rw [afterCompleting, hactions, List.drop_length, List.append_nil] at hmem
        obtain ⟨a, -, rfl⟩ := List.mem_map.1 hmem
        cases hstatus
      rw [List.getElem?_eq_none le_rfl]
      exact Option.eq_none_iff_forall_ne_some.2 hnone
  · intro hlt hcompleted
    have hstopped := hrunning (by simpa using hlt)
    rw [afterCompleting] at hcompleted
    rw [hcompleted] at hstopped
    cases hstopped

end AgentPlan

namespace Planner

theorem actionIds_normalizeActions (form : NormalForm) (actions : List PlannedAction)
    (index : ℕ) (previousActionId : Option String) :
    (normalizeActions form actions index previousActionId).map (·.actionId) =
      actions.map (·.actionId) := by
  induction actions generalizing index previousActionId with
  | nil => rfl
  | cons action actions ih => exact congrArg (action.actionId :: ·) (ih _ _)

/-- Normalization keeps tool, instruction and input of every action. -/
theorem realizes_normalizeActions (loads : String → Option Json) (form : NormalForm)
    (proposals : List PlannedAction) (index : ℕ) (previousActionId : Option String) :
    List.Forall₂ (Realizes loads) proposals
      (normalizeActions form (proposals.map (materialized loads)) index previousActionId) := by
  induction proposals generalizing index previousActionId with
  | nil => exact .nil
  | cons proposal proposals ih =>
      refine .cons ⟨?_, ?_, rfl⟩ (ih _ _)
      · exact materialized_toolName loads proposal
      · exact materialized_instruction loads proposal

/-- A plan that is returned is the agent's plan, normalized. -/
theorem createPlan_returns {σ : Type} [StateStore σ] {env : Env} {w : World σ}
    {registries : Registries} {context : AgentContext} {contextSnapshotRef agentRunId : String}
    {workflow : WorkflowDefinition} {scope : Scope} {generated plan : AgentPlan}
    (hgenerate : ∀ tick request, env.generatePlan tick request = .ok generated)
    (hcreated : (env.sem.exec (createPlan registries context contextSnapshotRef workflow
      agentRunId scope) w).1 = .ok plan) :
    ∃ form, plan = normalizePlanForRuntime form generated := by
  suffices hwp : (createPlan registries context contextSnapshotRef workflow agentRunId scope).wp
      env.sem.step (fun r _ => r = .ok plan →
        ∃ form, plan = normalizePlanForRuntime form generated) w by
    rw [Program.wp_step_iff] at hwp
    exact hwp hcreated
  unfold createPlan
  apply wp_liftExcept (by simp)
  rintro prompt -
  apply wp_liftExcept (by simp)
  rintro skills -
  apply wp_liftExcept (by simp)
  rintro allowed -
  apply wp_liftExcept (by simp)
  rintro tools -
  apply wp_liftExcept (by simp)
  rintro toolPolicy -
  rw [Program.wp_bind, Program.wp_perform_step]
  change Program.andThen _ _ _ (env.generatePlan w.tick _) _
  rw [hgenerate, Program.andThen_ok]
  apply wp_liftExcept (by simp)
  rintro u - ⟨⟩
  exact ⟨_, rfl⟩

end Planner

/-- A returned plan has lost no proposed action if and only if the proposed ids are
distinct. -/
theorem nothing_lost_iff {σ : Type} [StateStore σ] (loads : String → Option Json)
    (review : PlanReview) (attempts : ℕ → PlanningAttempt) (env : Env) (w : World σ)
    {registries : Registries} {context : AgentContext} {contextSnapshotRef agentRunId : String}
    {workflow : WorkflowDefinition} {scope : Planner.Scope} {proposed plan : AgentPlan}
    (hproposed : RuntimePlanningAgent.accepted loads review attempts = .ok proposed)
    (hgenerate : ∀ tick request, env.generatePlan tick request =
      RuntimePlanningAgent.generatePlan loads review attempts)
    (hcreated : (env.sem.exec (Planner.createPlan registries context contextSnapshotRef workflow
      agentRunId scope) w).1 = .ok plan) :
    NothingLost loads proposed plan ↔ (proposed.actions.map (·.actionId)).Nodup := by
  have hmaterialized : ∀ tick request, env.generatePlan tick request =
      .ok (materializeTypedActionInputs loads proposed) := by
    intro tick request
    rw [hgenerate, RuntimePlanningAgent.generatePlan, hproposed]
    rfl
  obtain ⟨form, rfl⟩ := Planner.createPlan_returns hmaterialized hcreated
  have hids : (Planner.normalizePlanForRuntime form
      (materializeTypedActionInputs loads proposed)).actions.map (·.actionId) =
      proposed.actions.map (·.actionId) :=
    (Planner.actionIds_normalizeActions form _ 1 none).trans
      (actionIds_materializeTypedActionInputs loads proposed)
  constructor
  · intro h
    rw [← hids]
    exact h.distinct
  · intro hnodup
    have hdistinct := hids ▸ hnodup
    refine ⟨?_, hdistinct, fun k hk => ?_⟩
    · have hrealizes := Planner.realizes_normalizeActions loads form proposed.actions 1 none
      rw [← actions_materializeTypedActionInputs loads hnodup] at hrealizes
      exact hrealizes
    · exact (Planner.normalizePlanForRuntime_orderly hdistinct).offersNext rfl
        (Planner.pending_normalizeActions form _ 1 none) hk

/-- The language model answers the first attempt, and nothing is found wrong with it. -/
def sampleAttempts (proposed : AgentPlan) : ℕ → PlanningAttempt :=
  fun _ => { answer := .ok proposed }

def sampleReview : PlanReview := { defect := fun _ => none, qualityIssues := fun _ => [] }

/-- The proposal to notify twice, with one id for both. -/
def sampleAmbiguous : AgentPlan :=
  { sampleProposal with
    actions := sampleProposal.actions.map fun action => { action with actionId := "a" } }

/-- The sample environment with a planning agent that accepts the proposal. -/
def samplePlanningEnv (proposed : AgentPlan) : Env :=
  { sampleEnv with
    generatePlan := fun _ _ =>
      RuntimePlanningAgent.generatePlan (fun _ => none) sampleReview (sampleAttempts proposed) }

/-- Creating the plan of the sample workflow for a proposal. -/
def sampleCreation (proposed : AgentPlan) : Except Exc AgentPlan :=
  ((samplePlanningEnv proposed).sem.exec
    (Planner.createPlan sampleRegistries
      { workspaceId := "ws", projectId := none, sourceEvent := sampleSeed
        workflowId := "workflow" } "ref" sampleWorkflow "run" {})
    ({ store := {} } : World MemoryStateStore)).1

theorem nothing_lost_sample :
    ∃ plan, sampleCreation sampleProposal = .ok plan ∧
      (NothingLost (fun _ => none) sampleProposal plan ↔
        (sampleProposal.actions.map (·.actionId)).Nodup) := by
  have hcreated : sampleCreation sampleProposal = .ok _ := rfl
  exact ⟨_, hcreated, nothing_lost_iff (fun _ => none) sampleReview (sampleAttempts sampleProposal)
    (samplePlanningEnv sampleProposal) _ rfl (fun _ _ => rfl) hcreated⟩

/-- With one id for two actions the plan is created, and completing the first action
completes the second. -/
theorem ambiguous_loses_action :
    ∃ plan, sampleCreation sampleAmbiguous = .ok plan ∧
      ¬ NothingLost (fun _ => none) sampleAmbiguous plan := by
  refine ⟨_, rfl, fun h => ?_⟩
  have hopen := (h.selectable 1 (by decide)).open_before_last (by decide)
  exact hopen (by decide)

end PrismAgent
