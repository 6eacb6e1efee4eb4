import PrismAgent.Application.SubAgentCoordinator
import PrismAgent.Effect.WeakestPrecondition
import PrismAgent.Text.Joined

/-!
# The outputs of a node

The result of a node holds the outputs of its sub-plan's actions by the names of their
tools, so it holds all of them, and counts them right, if and only if the actions that have a
result use different tools.
-/

namespace PrismAgent

open Effect

/-- How a store serves the results that were saved: a read changes nothing. -/
structure ResultTable (σ : Type) [StateStore σ] where
  saved : σ → String → String → Option ToolResult
  read : ∀ api planId actionId store, StateStore.getActionResult api planId actionId store =
    (saved store planId actionId, store)

def MemoryStateStore.resultTable : ResultTable MemoryStateStore where
  saved := MemoryStateStore.getActionResult
  read _ _ _ _ := rfl

namespace SubAgentCoordinator

section Saved

variable (saved : String → Option ToolResult)

/-- The actions that have a saved result. -/
def actionsWithResult (actions : List PlannedAction) : List PlannedAction :=
  actions.filter fun action => (saved action.actionId).isSome

/-- The saved outputs, each under the tool of its action. -/
def savedOutputs (actions : List PlannedAction) : Fields :=
  actions.filterMap fun action =>
    (saved action.actionId).map fun result => (action.toolName, .obj result.output)

/-- The result has the output of every action that has one, and says how many have. -/
structure CarriesOutputs (nodeId : String) (subPlan : AgentPlan) (result : SubAgentResult) :
    Prop where
  outputs : ∃ outputs, result.structuredOutput.lookup "outputs" = some (.obj outputs) ∧
    ∀ action ∈ subPlan.actions, ∀ r, saved action.actionId = some r →
      outputs.lookup action.toolName = some (.obj r.output)
  count : result.summary = nodeId ++ ": completed " ++
    toString (actionsWithResult saved subPlan.actions).length ++ " action(s)."

/-- The result with these outputs. -/
def resultWith (nodeId : String) (subPlan : AgentPlan) (outputs : Fields) : SubAgentResult :=
  { nodeId := nodeId
    skillIds := subPlan.skillIds
    summary := nodeId ++ ": completed " ++ toString outputs.length ++ " action(s)."
    structuredOutput := [("outputs", .obj outputs)] }

variable {saved}

theorem keys_savedOutputs (actions : List PlannedAction) :
    Dict.keys (savedOutputs saved actions) =
      (actionsWithResult saved actions).map (·.toolName) := by
  unfold Dict.keys savedOutputs actionsWithResult
  induction actions with
  | nil => rfl
  | cons action actions ih => cases h : saved action.actionId <;> simp [h, ih]

theorem length_savedOutputs (actions : List PlannedAction) :
    (savedOutputs saved actions).length = (actionsWithResult saved actions).length := by
  have hkeys : (Dict.keys (savedOutputs saved actions)).length =
      ((actionsWithResult saved actions).map (·.toolName)).length :=
    congrArg List.length (keys_savedOutputs actions)
  simpa [Dict.keys] using hkeys

/-- Folded into a dictionary, the outputs are all there exactly if no tool repeats. -/
theorem carriesOutputs_iff (nodeId : String) (subPlan : AgentPlan) :
    CarriesOutputs saved nodeId subPlan
        (resultWith nodeId subPlan (Dict.ofPairs (savedOutputs saved subPlan.actions))) ↔
      ((actionsWithResult saved subPlan.actions).map (·.toolName)).Nodup := by
  rw [← keys_savedOutputs, ← Dict.length_ofPairs_eq_iff, length_savedOutputs]
  constructor
  · intro h
    have hcount := congrArg String.toList h.count
    simp only [resultWith, String.toList_append, List.append_cancel_left_eq,
      List.append_cancel_right_eq] at hcount
    exact Joined.toString_inj (String.toList_injective hcount)
  · intro h
    refine ⟨⟨_, rfl, fun action haction r hr => ?_⟩, ?_⟩
    · have hnodup : (Dict.keys (savedOutputs saved subPlan.actions)).Nodup := by
        rw [← Dict.length_ofPairs_eq_iff, length_savedOutputs, h]
      rw [Dict.ofPairs, Dict.lookup_merge hnodup, List.lookup_nil, Option.or_none,
        Dict.lookup_eq_some_iff hnodup]
      exact List.mem_filterMap.2 ⟨action, haction, by rw [hr]; rfl⟩
    · unfold resultWith
      rw [h]

end Saved

section Build

variable {σ : Type} [StateStore σ] (table : ResultTable σ) (env : Env)

/-- Reading the outputs folds them into the dictionary. -/
theorem wp_actionOutputs (planId : String) (actions : List PlannedAction) (outputs : Fields)
    (w : World σ) :
    (actionOutputs planId actions outputs).wp env.sem.step
      (fun r _ => r = .ok (Dict.merge outputs
        (savedOutputs (table.saved w.store planId) actions))) w := by
  induction actions generalizing outputs w with
  | nil => rfl
  | cons action actions ih =>
      have hread := table.read (env.stateApi w.tick) planId action.actionId w.store
      rw [actionOutputs, Program.wp_bind, Program.wp_perform_step]
      simp only [Env.sem, hread, Program.andThen_ok]
      unfold savedOutputs
      cases hresult : table.saved w.store planId action.actionId with
      | none =>
          rw [List.filterMap_cons_none (by rw [hresult]; rfl)]
          exact ih outputs { w with tick := w.tick + 1 }
      | some result =>
          rw [List.filterMap_cons_some (by rw [hresult]; rfl), Dict.merge_cons]
          exact ih (Dict.insert outputs action.toolName (.obj result.output))
            { w with tick := w.tick + 1 }

/-- The result that is built of a sub-plan. -/
theorem exec_buildResult (nodeId : String) (subPlan : AgentPlan) (w : World σ) :
    (env.sem.exec (buildResult nodeId (some subPlan)) w).1 = .ok (resultWith nodeId subPlan
      (Dict.ofPairs (savedOutputs (table.saved w.store subPlan.planId) subPlan.actions))) := by
  have hbuilt : (buildResult nodeId (some subPlan)).wp env.sem.step
      (fun r _ => r = .ok (resultWith nodeId subPlan
        (Dict.ofPairs (savedOutputs (table.saved w.store subPlan.planId) subPlan.actions)))) w := by
    rw [buildResult, Program.wp_bind]
    refine Program.wp_mono (wp_actionOutputs table env _ _ _ _) ?_
    rintro _ t rfl
    rfl
  exact (Program.wp_step_iff _ _ _ _).1 hbuilt

/-- The result built of a sub-plan carries every output that is saved if and only if the
actions with a result use different tools. -/
theorem built_result_carries_outputs_iff (nodeId : String) (subPlan : AgentPlan) (w : World σ) :
    (∃ result, (env.sem.exec (buildResult nodeId (some subPlan)) w).1 = .ok result ∧
      CarriesOutputs (table.saved w.store subPlan.planId) nodeId subPlan result) ↔
    ((actionsWithResult (table.saved w.store subPlan.planId) subPlan.actions).map
      (·.toolName)).Nodup := by
  rw [← carriesOutputs_iff nodeId subPlan, exec_buildResult table]
  constructor
  · rintro ⟨result, hresult, hcarries⟩
    cases hresult
    exact hcarries
  · exact fun h => ⟨_, rfl, h⟩

end Build

section Sample

/-- An action that creates a work item. -/
def createItemAction (actionId : String) : PlannedAction :=
  { actionId := actionId, planId := "run::node", actionType := "mutation",
    toolName := "create_workitem", instruction := "", idempotencyKey := actionId }

def createItemsPlan : AgentPlan :=
  { planId := "run::node", parentRunId := some "run", nodeId := some "node",
    sourceEventId := "event", workspaceId := "w", projectId := none, goal := "",
    promptId := "prompt", promptVersion := "v1",
    actions := [createItemAction "1", createItemAction "2"], contextSnapshotRef := "snapshot" }

/-- The result of an action that created an item. -/
def createdItem (actionId itemId : String) : ToolResult :=
  { resultId := actionId, planId := "run::node", actionId := actionId,
    toolName := "create_workitem", success := true, output := [("itemId", .str itemId)] }

def createdItems : MemoryStateStore :=
  (MemoryStateStore.saveActionResult {} (createdItem "1" "first")).saveActionResult
    (createdItem "2" "second")

/-- Of two items that a node created its result has the second one only. -/
theorem repeated_tool_overwrites :
    ¬∀ (env : Env) (nodeId : String) (subPlan : AgentPlan) (w : World MemoryStateStore),
      (subPlan.actions.map (·.actionId)).Nodup →
        ∃ result, (env.sem.exec (buildResult nodeId (some subPlan)) w).1 = .ok result ∧
          CarriesOutputs (MemoryStateStore.resultTable.saved w.store subPlan.planId) nodeId
            subPlan result := by
  intro hcarries
  obtain ⟨result, hresult, h⟩ := hcarries (Env.sample {} createItemsPlan) "node" createItemsPlan
    { store := createdItems } (by decide)
  rw [exec_buildResult MemoryStateStore.resultTable] at hresult
  cases hresult
  exact absurd ((carriesOutputs_iff "node" createItemsPlan).1 h) (by decide)

end Sample

end SubAgentCoordinator

end PrismAgent
