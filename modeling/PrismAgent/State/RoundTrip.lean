import PrismAgent.State.PrismApi

/-!
# Statuses through the API

`AgentRunSync` writes the statuses of a plan to the API and `hydratePlanState` reads
them back. Hydration gives each action the status decoded from its record; the plan
comes back as it was when every record decodes to the status it was written for.
-/

namespace PrismAgent

/-- The status and flag of an action that the API's vocabulary can tell: RUNNING reads
as PENDING, STALE as SKIPPED, a PENDING action that needs an approval as
REQUIRES_APPROVAL and one without the flag that waits for an approval as PENDING. -/
def PlannedAction.Told (action : PlannedAction) : Bool :=
  match action.status with
  | .completed | .failed | .skipped => true
  | .requiresApproval => action.requiresApproval
  | .pending => !action.requiresApproval
  | .running | .stale => false

/-- An action's own record decodes to its status if and only if the vocabulary can tell
it. -/
theorem actionStatusFromRecord_upsertAction (uuid5 : String → String) (action : PlannedAction)
    (current : ActionStatus) :
    actionStatusFromRecord (upsertAction uuid5 action) current = action.status ↔
      action.Told = true := by
  have hexecuted : lower "executed" = "executed" := by decide
  have hfailed : lower "failed" = "failed" := by decide
  have hcancelled : lower "cancelled" = "cancelled" := by decide
  have happroved : lower "approved" = "approved" := by decide
  have hproposed : lower "proposed" = "proposed" := by decide
  unfold upsertAction PlannedAction.Told actionStatusFromRecord actionStatusToApi
  cases action.status <;> cases action.requiresApproval <;>
    simp [hexecuted, hfailed, hcancelled, happroved, hproposed]

namespace PrismApiStateStore

variable (api : StateApi) {p : AgentPlan} {state : RunState}

/-- The record under an id; a later one wins. -/
def recordUnder (records : List ActionRecord) (id : String) : Option ActionRecord :=
  records.reverse.find? fun record => record.actionId = id

/-- The run state mirrors the plan: for each action the record last written for it, and
the run status of the plan. -/
structure Mirrors (p : AgentPlan) (state : RunState) : Prop where
  actions : ∀ a ∈ p.actions,
    recordUnder state.actions (actionApiId api.uuid5 a) = some (upsertAction api.uuid5 a)
  run : state.runStatus = some (runStatusToApi p)

/-- The status that hydration gives an action. -/
def decodedStatus (records : List ActionRecord) (action : PlannedAction) : ActionStatus :=
  match recordFor api records action with
  | none => action.status
  | some record => actionStatusFromRecord record action.status

/-- One step of the fold of `hydratePlanState`. -/
def hydrateAction (records : List ActionRecord) (hydrated : AgentPlan) (action : PlannedAction) :
    AgentPlan :=
  match recordFor api records action with
  | none => hydrated
  | some record =>
      let status := actionStatusFromRecord record action.status
      if status ≠ action.status then hydrated.replaceAction (action.withStatus status)
      else hydrated

theorem hydrateAction_eq (records : List ActionRecord) (hydrated : AgentPlan)
    (action : PlannedAction) :
    hydrateAction api records hydrated action =
      if decodedStatus api records action = action.status then hydrated
      else hydrated.replaceAction (action.withStatus (decodedStatus api records action)) := by
  unfold hydrateAction decodedStatus
  cases recordFor api records action with
  | none => simp
  | some record => simp only [ne_eq, ite_not]

theorem hydratePlanState_eq :
    hydratePlanState api p state =
      { p.actions.foldl (hydrateAction api state.actions) p with
        status := planStatusFromRun state.runStatus
          (p.actions.foldl (hydrateAction api state.actions) p).status } := by
  unfold hydratePlanState
  change (if planStatusFromRun state.runStatus
    (p.actions.foldl (hydrateAction api state.actions) p).status ≠
      (p.actions.foldl (hydrateAction api state.actions) p).status then _ else _) = _
  split
  next => rfl
  next h =>
    rw [not_not.1 h]
    rfl

/-- The fold gives the actions it has passed their decoded status. -/
theorem foldl_hydrateAction_actions (records : List ActionRecord) {done todo : List PlannedAction}
    {q : AgentPlan} (hnodup : (q.actions.map (·.actionId)).Nodup)
    (hactions : q.actions = done ++ todo) :
    (todo.foldl (hydrateAction api records) q).actions =
      done ++ todo.map fun a => a.withStatus (decodedStatus api records a) := by
  refine AgentPlan.foldl_actions_of_nodup hnodup hactions fun q action => ?_
  rw [hydrateAction_eq]
  split
  next hsame =>
    rw [hsame]
    exact .inl ⟨rfl, rfl⟩
  next hchanged => exact .inr ⟨rfl, rfl⟩

/-- Hydration gives every action its decoded status. -/
theorem hydratePlanState_actions (hnodup : (p.actions.map (·.actionId)).Nodup) :
    (hydratePlanState api p state).actions =
      p.actions.map fun a => a.withStatus (decodedStatus api state.actions a) := by
  have hsplit : p.actions = [] ++ p.actions := rfl
  rw [hydratePlanState_eq]
  exact foldl_hydrateAction_actions api state.actions hnodup hsplit

/-- A plan whose actions all keep their status is hydrated to itself, as far as the run
status agrees. -/
theorem foldl_hydrateAction_of_same (records : List ActionRecord) {todo : List PlannedAction}
    (q : AgentPlan) (h : ∀ a ∈ todo, decodedStatus api records a = a.status) :
    todo.foldl (hydrateAction api records) q = q := by
  induction todo with
  | nil => rfl
  | cons action todo ih =>
      rw [List.foldl_cons, hydrateAction_eq, if_pos (h action List.mem_cons_self)]
      exact ih fun a ha => h a (List.mem_cons_of_mem _ ha)

/-- The run status of a plan says nothing against the status of the plan. -/
theorem planStatusFromRun_runStatusToApi (plan : AgentPlan) :
    planStatusFromRun (some (runStatusToApi plan)) plan.status = plan.status := by
  have hcompleted : lower "completed" = "completed" := by decide
  have hfailed : lower "failed" = "failed" := by decide
  have hcancelled : lower "cancelled" = "cancelled" := by decide
  have hwaiting : lower "waiting" = "waiting" := by decide
  have hrunning : lower "running" = "running" := by decide
  unfold planStatusFromRun runStatusToApi
  cases plan.status <;> simp [hcompleted, hfailed, hcancelled, hwaiting, hrunning]

/-- The record read for an action decodes to the action's status. With no record under
the action's own id, it is the record written for it. -/
def Readable (records : List ActionRecord) (action : PlannedAction) : Prop :=
  match recordUnder records action.actionId with
  | some record => actionStatusFromRecord record action.status = action.status
  | none => action.Told = true

theorem decodedStatus_eq_iff (h : Mirrors api p state) {a : PlannedAction} (ha : a ∈ p.actions) :
    decodedStatus api state.actions a = a.status ↔ Readable state.actions a := by
  have hrecord : recordFor api state.actions a =
      (recordUnder state.actions a.actionId).or (some (upsertAction api.uuid5 a)) := by
    rw [← h.actions a ha]
    rfl
  unfold decodedStatus Readable
  rw [hrecord]
  cases recordUnder state.actions a.actionId with
  | some record => rfl
  | none => exact actionStatusFromRecord_upsertAction api.uuid5 a a.status

/-- The statuses of a plan survive the API if and only if every action's record can be
read back. -/
theorem statuses_survive_iff (hnodup : (p.actions.map (·.actionId)).Nodup)
    (h : Mirrors api p state) :
    ((hydratePlanState api p state).actions.map (·.status) = p.actions.map (·.status) ∧
        (hydratePlanState api p state).status = p.status) ↔
      ∀ a ∈ p.actions, Readable state.actions a := by
  have hiff : (∀ a ∈ p.actions, Readable state.actions a) ↔
      ∀ a ∈ p.actions, decodedStatus api state.actions a = a.status :=
    forall₂_congr fun a ha => (decodedStatus_eq_iff api h ha).symm
  rw [hiff]
  constructor
  · rintro ⟨hactions, -⟩
    rw [hydratePlanState_actions api hnodup, List.map_map] at hactions
    exact List.map_inj_left.1 hactions
  · intro hsame
    constructor
    · rw [hydratePlanState_actions api hnodup, List.map_map]
      exact List.map_congr_left hsame
    · rw [hydratePlanState_eq, foldl_hydrateAction_of_same api state.actions p hsame, h.run]
      exact planStatusFromRun_runStatusToApi p

/-- The run state after every action of the plan has been written. -/
def mirror (p : AgentPlan) : RunState :=
  { actions := p.actions.map (upsertAction api.uuid5)
    runStatus := some (runStatusToApi p) }

/-- A transport that knows nothing and a hash that returns its input. -/
def sampleApi : StateApi :=
  { fetchRunState := fun _ _ _ => {}
    uuid5 := fun raw => raw }

/-- A plan of one action in the given status. -/
def samplePlanOf (planStatus : PlanStatus) (status : ActionStatus) : AgentPlan :=
  { planId := "run"
    sourceEventId := "event"
    workspaceId := "ws"
    projectId := none
    goal := "goal"
    promptId := "prompt"
    promptVersion := "1"
    actions :=
      [{ actionId := "a"
         planId := "run"
         actionType := "notify"
         toolName := "notify"
         instruction := ""
         status := status
         idempotencyKey := "key" }]
    status := planStatus
    contextSnapshotRef := "context" }

/-- A plan that waits for an approval, with an action in every status that the API can tell. -/
def waitingPlan : AgentPlan :=
  { samplePlanOf .waitingForApproval .completed with
    actions :=
      [("a", .completed, false), ("b", .failed, false), ("c", .skipped, false),
        ("d", .requiresApproval, true), ("e", .pending, false)].map
          fun (actionId, status, requiresApproval) =>
            { actionId := actionId, planId := "run", actionType := "notify"
              toolName := "notify", instruction := "", status := status
              requiresApproval := requiresApproval, idempotencyKey := "key:" ++ actionId } }

theorem statuses_survive_sample :
    (hydratePlanState sampleApi waitingPlan (mirror sampleApi waitingPlan)).actions.map
        (·.status) = [.completed, .failed, .skipped, .requiresApproval, .pending] ∧
      (hydratePlanState sampleApi waitingPlan (mirror sampleApi waitingPlan)).status =
        .waitingForApproval := by
  refine (statuses_survive_iff sampleApi (by decide) ⟨by decide, rfl⟩).2 ?_
  have hreadable : ∀ a ∈ waitingPlan.actions,
      recordUnder (mirror sampleApi waitingPlan).actions a.actionId = none ∧
        a.Told = true := by decide
  intro a ha
  obtain ⟨hnone, htold⟩ := hreadable a ha
  unfold Readable
  rw [hnone]
  exact htold

/-- A RUNNING action is read back as PENDING. -/
theorem running_reads_pending :
    Mirrors sampleApi (samplePlanOf .running .running)
        (mirror sampleApi (samplePlanOf .running .running)) ∧
      ¬ ((hydratePlanState sampleApi (samplePlanOf .running .running)
            (mirror sampleApi (samplePlanOf .running .running))).actions.map (·.status) =
            (samplePlanOf .running .running).actions.map (·.status) ∧
          (hydratePlanState sampleApi (samplePlanOf .running .running)
            (mirror sampleApi (samplePlanOf .running .running))).status =
            (samplePlanOf .running .running).status) :=
  ⟨⟨by decide, rfl⟩, by decide⟩

end PrismApiStateStore

end PrismAgent
