import PrismAgent.Application.Writes
import PrismAgent.Effect.Calls

/-!
# What planning guarantees

Whatever the language model proposes, a plan that `createPlan` returns uses only
the tools of the selected skills, and its actions require an approval exactly
where the workflow's policy says so. `PlannedFor` keeps this knowledge while the
statuses of the plan change.
-/

namespace PrismAgent

open Effect

/-- The mode of a tool in a workflow: the workflow's own setting, or the one of the
tool's definition. -/
def effectiveMode (registries : Registries) (workflow : WorkflowDefinition)
    (toolName : String) : ApprovalMode :=
  match workflow.approvalPolicy.lookup toolName with
  | some value => Planner.approvalModeOf value
  | none =>
      match registries.tools.tools.lookup toolName with
      | some definition => Planner.approvalModeOf definition.approvalPolicy
      | none => .autoCommit

/-- `createPlan` may return the plan for the workflow and the selected skills. -/
def CreatedFor (registries : Registries) (workflow : WorkflowDefinition)
    (skillNames : List String) (plan : AgentPlan) : Prop :=
  ∃ context contextSnapshotRef agentRunId, ∃ scope : Planner.Scope,
    scope.skillIds.getD workflow.requiredSkills = skillNames ∧
      (Planner.createPlan registries context contextSnapshotRef workflow agentRunId
        scope).MayReturn plan

namespace Planner

theorem mem_normalizeActions {form : NormalForm} {actions : List PlannedAction} {index : ℕ}
    {previousActionId : Option String} {action : PlannedAction}
    (h : action ∈ normalizeActions form actions index previousActionId) :
    action.requiresApproval = form.approvalPolicy.requiresApproval action.toolName := by
  induction actions generalizing index previousActionId with
  | nil => cases h
  | cons first actions ih =>
      rcases List.mem_cons.1 h with rfl | h
      · rfl
      · exact ih h

theorem mem_of_ensurePlanUsesAllowedTools {plan : AgentPlan} {allowedToolNames : List String}
    {u : Unit} (h : ensurePlanUsesAllowedTools plan allowedToolNames = .ok u)
    {action : PlannedAction} (haction : action ∈ plan.actions) :
    action.toolName ∈ allowedToolNames := by
  unfold ensurePlanUsesAllowedTools at h
  by_contra hnot
  have hmem : action.toolName ∈ disallowedTools plan allowedToolNames := by
    unfold disallowedTools
    simp only [List.mem_dedup, List.mem_filter, List.mem_map, decide_eq_true_eq]
    exact ⟨⟨action, haction, rfl⟩, hnot⟩
  rw [if_pos (List.ne_nil_of_mem hmem)] at h
  cases h

theorem mapM_cons_eq_ok {α β ε : Type} {f : α → Except ε β} {x : α} {xs : List α}
    {ys : List β} (h : (x :: xs).mapM f = .ok ys) :
    ∃ y ys', f x = .ok y ∧ xs.mapM f = .ok ys' ∧ ys = y :: ys' := by
  rw [List.mapM_cons] at h
  cases hx : f x with
  | error e =>
      rw [hx] at h
      cases h
  | ok y =>
      cases hxs : xs.mapM f with
      | error e =>
          rw [hx, hxs] at h
          cases h
      | ok ys' =>
          rw [hx, hxs] at h
          cases h
          exact ⟨y, ys', rfl, rfl, rfl⟩

theorem lookup_toolApprovalPolicy {tools : ToolRegistry} {toolNames : List String}
    {policy : Dict String String} (h : toolApprovalPolicy tools toolNames = .ok policy)
    {toolName : String} (htool : toolName ∈ toolNames) :
    ∃ definition, tools.tools.lookup toolName = some definition ∧
      policy.lookup toolName = some definition.approvalPolicy := by
  induction toolNames generalizing policy with
  | nil => cases htool
  | cons first toolNames ih =>
      obtain ⟨entry, rest, hfirst, hrest, rfl⟩ := mapM_cons_eq_ok h
      cases hlookup : tools.tools.lookup first with
      | none =>
          simp only [ToolRegistry.definition, hlookup] at hfirst
          cases hfirst
      | some definition =>
          simp only [ToolRegistry.definition, hlookup] at hfirst
          cases hfirst
          rw [List.lookup_cons]
          by_cases hname : toolName = first
          · subst hname
            exact ⟨definition, hlookup, by simp⟩
          · rw [beq_eq_false_iff_ne.2 hname]
            exact ih hrest ((List.mem_cons.1 htool).resolve_left hname)

/-- The mode of an allowed tool under the merged policy. -/
theorem mode_approvalPolicy {registries : Registries} {workflow : WorkflowDefinition}
    {toolNames : List String} {toolPolicy : Dict String String}
    (h : toolApprovalPolicy registries.tools toolNames = .ok toolPolicy)
    {toolName : String} (htool : toolName ∈ toolNames) :
    (approvalPolicy (Dict.merge toolPolicy workflow.approvalPolicy)).mode toolName =
      effectiveMode registries workflow toolName := by
  obtain ⟨definition, hlookup, hpolicy⟩ := lookup_toolApprovalPolicy h htool
  unfold ActionApprovalPolicy.mode approvalPolicy effectiveMode
  dsimp only
  rw [Dict.lookup_map, Dict.lookup_merge workflow.approvalPolicy_nodup, hpolicy, hlookup]
  cases workflow.approvalPolicy.lookup toolName <;> rfl

end Planner

/-- A created plan uses allowed tools, and an action runs without an approval
exactly when its tool's mode is AUTO_COMMIT. -/
theorem CreatedFor.action_spec {registries : Registries} {workflow : WorkflowDefinition}
    {skillNames : List String} {plan : AgentPlan}
    (h : CreatedFor registries workflow skillNames plan) :
    ∃ allowed, registries.skills.allowedToolsFor skillNames = .ok allowed ∧
      ∀ action ∈ plan.actions, action.toolName ∈ allowed ∧
        (action.requiresApproval = false ↔
          effectiveMode registries workflow action.toolName = .autoCommit) := by
  obtain ⟨context, contextSnapshotRef, agentRunId, scope, hskills, hreturn⟩ := h
  unfold Planner.createPlan at hreturn
  rw [hskills] at hreturn
  simp only [Program.mayReturn_bind, mayReturn_liftExcept] at hreturn
  obtain ⟨prompt, -, skills, -, allowed, hallowed, tools, -, toolPolicy, htoolPolicy, proposed,
    -, u, hensure, hplan⟩ := hreturn
  refine ⟨allowed, hallowed, fun action haction => ?_⟩
  rw [← (Program.mayReturn_pure _).1 hplan] at haction
  have htool := Planner.mem_of_ensurePlanUsesAllowedTools hensure haction
  refine ⟨htool, ?_⟩
  rw [Planner.mem_normalizeActions haction, ActionApprovalPolicy.requiresApproval_eq_false_iff,
    Planner.mode_approvalPolicy htoolPolicy htool]

/-- `plan` is `origin` with other statuses, perhaps as the sub-plan of a node. -/
structure Descends (origin plan : AgentPlan) : Prop where
  planId : plan.planId = origin.planId
  workspaceId : plan.workspaceId = origin.workspaceId
  promptId : plan.promptId = origin.promptId
  promptVersion : plan.promptVersion = origin.promptVersion
  skillIds : plan.skillIds = origin.skillIds
  toolNames : plan.toolNames = origin.toolNames
  contextSnapshotRef : plan.contextSnapshotRef = origin.contextSnapshotRef
  actions : ∀ action ∈ plan.actions, ∃ first ∈ origin.actions,
    action = first.withStatus action.status

namespace Descends

variable {origin plan : AgentPlan}

theorem refl (plan : AgentPlan) : Descends plan plan :=
  ⟨rfl, rfl, rfl, rfl, rfl, rfl, rfl, fun action haction => ⟨action, haction, rfl⟩⟩

/-- An action of the plan may take another status. -/
theorem replaceAction (h : Descends origin plan) {action : PlannedAction}
    (haction : action ∈ plan.actions) (status : ActionStatus) :
    Descends origin (plan.replaceAction (action.withStatus status)) := by
  refine ⟨h.planId, h.workspaceId, h.promptId, h.promptVersion, h.skillIds, h.toolNames,
    h.contextSnapshotRef, fun replaced hreplaced => ?_⟩
  rw [AgentPlan.replaceAction_actions, List.mem_map] at hreplaced
  obtain ⟨a, ha, rfl⟩ := hreplaced
  split
  · obtain ⟨first, hfirst, heq⟩ := h.actions action haction
    exact ⟨first, hfirst, by rw [heq]; rfl⟩
  · exact h.actions a ha

end Descends

/-- The plan was created for the workflow and the selected skills; its statuses may
have changed since. -/
def PlannedFor (registries : Registries) (workflow : WorkflowDefinition)
    (skillNames : List String) (plan : AgentPlan) : Prop :=
  ∃ origin, CreatedFor registries workflow skillNames origin ∧ Descends origin plan

/-- What `createPlan` guarantees outlives the changes of status. -/
theorem PlannedFor.action_spec {registries : Registries} {workflow : WorkflowDefinition}
    {skillNames : List String} {plan : AgentPlan}
    (h : PlannedFor registries workflow skillNames plan) :
    ∃ allowed, registries.skills.allowedToolsFor skillNames = .ok allowed ∧
      ∀ action ∈ plan.actions, action.toolName ∈ allowed ∧
        (action.requiresApproval = false ↔
          effectiveMode registries workflow action.toolName = .autoCommit) := by
  obtain ⟨origin, hcreated, hdescends⟩ := h
  obtain ⟨allowed, hallowed, hactions⟩ := hcreated.action_spec
  refine ⟨allowed, hallowed, fun action haction => ?_⟩
  obtain ⟨first, hfirst, heq⟩ := hdescends.actions action haction
  rw [heq]
  exact hactions first hfirst

end PrismAgent
