import PrismAgent.Orchestration.Nodes
import PrismAgent.Safety.Execution
import PrismAgent.Text.Joined
import Mathlib.Data.List.Pairwise

/-!
# Idempotency keys of a run

Normalization gives every action the key `prefix:tool:index`. A sub-plan has its own id as
prefix, the plan of a whole workflow the key of its source event, and a plan made again has
the key of the stale action, marked as replanned. A key without colons in the tool's name
determines its prefix, its tool and its index, so keys are reused only where plans share a
prefix.
-/

namespace PrismAgent

open Effect Joined
open SubAgentRunner (subPlanId planForNode)
open ActionEventHandler (replanEvent Delivery)

namespace Planner

/-- The key of an action of `tool` at the place `i`, counted from 0. -/
def keyAt (base tool : String) (i : ℕ) : String := base ++ ":" ++ tool ++ ":" ++ toString (i + 1)

theorem keyAt_index_inj {base base' tool tool' : String} {i j : ℕ}
    (h : keyAt base tool i = keyAt base' tool' j) : i = j := by
  have hindex := (colon_inj (colon_notMem_toString _) (colon_notMem_toString _) h).2
  have hsucc := toString_inj hindex
  omega

theorem keyAt_inj {base base' tool tool' : String} {i j : ℕ} (htool : ':' ∉ tool.toList)
    (htool' : ':' ∉ tool'.toList) (h : keyAt base tool i = keyAt base' tool' j) :
    base = base' ∧ tool = tool' ∧ i = j := by
  have hfront := (colon_inj (colon_notMem_toString _) (colon_notMem_toString _) h).1
  obtain ⟨hbase, htools⟩ := colon_inj htool htool' hfront
  exact ⟨hbase, htools, keyAt_index_inj h⟩

theorem length_keyAt (base tool : String) (i : ℕ) : base.length < (keyAt base tool i).length := by
  have hcolon : ":".length = 1 := rfl
  simp only [keyAt, String.length_append, hcolon]
  omega

/-- The keys of the plan are made of one prefix. -/
def Keyed (base : String) (plan : AgentPlan) : Prop :=
  ∀ i action, plan.actions[i]? = some action →
    action.idempotencyKey = keyAt base action.toolName i

theorem getElem?_normalizeActions (form : NormalForm) (actions : List PlannedAction) (index : ℕ)
    (previousActionId : Option String) (i : ℕ) (action : PlannedAction)
    (h : (normalizeActions form actions (index + 1) previousActionId)[i]? = some action) :
    action.idempotencyKey = keyAt form.idempotencyPrefix action.toolName (index + i) := by
  induction actions generalizing index previousActionId i with
  | nil => simp [normalizeActions] at h
  | cons first rest ih =>
      cases i with
      | zero =>
          obtain rfl := Option.some.inj h
          rfl
      | succ i =>
          have hrest := ih (index + 1) _ i h
          rwa [show index + 1 + i = index + (i + 1) by omega] at hrest

theorem normalizePlanForRuntime_keyed (form : NormalForm) (proposed : AgentPlan) :
    Keyed form.idempotencyPrefix (normalizePlanForRuntime form proposed) := by
  intro i action h
  have hkey := getElem?_normalizeActions form proposed.actions 0 none i action h
  rwa [Nat.zero_add] at hkey

theorem createPlan_keyed {registries : Registries} {context : AgentContext}
    {contextSnapshotRef agentRunId : String} {workflow : WorkflowDefinition} {scope : Scope}
    {plan : AgentPlan} (h : (createPlan registries context contextSnapshotRef workflow
      agentRunId scope).MayReturn plan) :
    Keyed (idempotencyPrefix context agentRunId scope.planId) plan := by
  obtain ⟨form, proposed, -, -, -, hbase, rfl⟩ := createPlan_mayReturn h
  rw [← hbase]
  exact normalizePlanForRuntime_keyed form proposed

/-- The keys of one plan are distinct, whatever its tools. -/
theorem Keyed.nodup {base : String} {plan : AgentPlan} (h : Keyed base plan) :
    (plan.actions.map (·.idempotencyKey)).Nodup := by
  rw [List.nodup_iff_injective_getElem]
  intro i j hij
  apply Fin.ext
  simp only [List.getElem_map] at hij
  rw [h i _ (List.getElem?_eq_getElem _), h j _ (List.getElem?_eq_getElem _)] at hij
  exact keyAt_index_inj hij

end Planner

open Planner

section Plans

/-- The idempotency keys of the plans' actions. -/
def keysOf (plans : List AgentPlan) : List String :=
  plans.flatMap fun plan => plan.actions.map (·.idempotencyKey)

/-- No tool's name holds a colon. -/
def PlainTools (plans : List AgentPlan) : Prop :=
  ∀ plan ∈ plans, ∀ action ∈ plan.actions, ':' ∉ action.toolName.toList

/-- Two plans use one tool at the same place. -/
def Meet (plan other : AgentPlan) : Prop :=
  ∃ (i : ℕ) (action action' : PlannedAction), plan.actions[i]? = some action ∧
    other.actions[i]? = some action' ∧ action.toolName = action'.toolName

/-- Two plans of one prefix share a key where they use one tool at the same place. -/
theorem Keyed.disjoint_iff {base base' : String} {plan other : AgentPlan} (h : Keyed base plan)
    (h' : Keyed base' other) (htools : PlainTools [plan, other]) :
    List.Disjoint (plan.actions.map (·.idempotencyKey)) (other.actions.map (·.idempotencyKey)) ↔
      (base = base' → ¬ Meet plan other) := by
  constructor
  · rintro hdisjoint rfl ⟨i, action, action', hi, hi', htool⟩
    refine hdisjoint (List.mem_map_of_mem (List.mem_of_getElem? hi)) ?_
    rw [h i action hi, htool, ← h' i action' hi']
    exact List.mem_map_of_mem (List.mem_of_getElem? hi')
  · intro hapart key hkey hkey'
    obtain ⟨action, haction, rfl⟩ := List.mem_map.1 hkey
    obtain ⟨action', haction', hsame⟩ := List.mem_map.1 hkey'
    obtain ⟨i, hi⟩ := List.mem_iff_getElem?.1 haction
    obtain ⟨j, hj⟩ := List.mem_iff_getElem?.1 haction'
    rw [h i action hi, h' j action' hj] at hsame
    obtain ⟨hbase, htool, rfl⟩ := keyAt_inj (htools other (by simp) action' haction')
      (htools plan (by simp) action haction) hsame
    exact hapart hbase.symm ⟨j, action, action', hi, hj, htool.symm⟩

/-- The keys of plans with prefixes are distinct where no two plans of one prefix meet. -/
theorem keysOf_nodup_iff {tagged : List (String × AgentPlan)}
    (hkeyed : ∀ x ∈ tagged, Keyed x.1 x.2) (htools : PlainTools (tagged.map Prod.snd)) :
    (keysOf (tagged.map Prod.snd)).Nodup ↔
      tagged.Pairwise fun x y => x.1 = y.1 → ¬ Meet x.2 y.2 := by
  have hplain : ∀ {x y}, x ∈ tagged → y ∈ tagged → PlainTools [x.2, y.2] := by
    intro x y hx hy plan hplan
    rcases List.mem_pair.1 hplan with rfl | rfl
    · exact htools _ (List.mem_map_of_mem hx)
    · exact htools _ (List.mem_map_of_mem hy)
  unfold keysOf
  rw [List.nodup_flatMap, List.pairwise_map]
  constructor
  · rintro ⟨-, hdisjoint⟩
    refine hdisjoint.imp_of_mem fun hx hy hxy => ?_
    exact (Keyed.disjoint_iff (hkeyed _ hx) (hkeyed _ hy) (hplain hx hy)).1 hxy
  · intro hpairwise
    refine ⟨fun plan hplan => ?_, hpairwise.imp_of_mem fun hx hy hxy => ?_⟩
    · obtain ⟨x, hx, rfl⟩ := List.mem_map.1 hplan
      exact (hkeyed x hx).nodup
    · exact (Keyed.disjoint_iff (hkeyed _ hx) (hkeyed _ hy) (hplain hx hy)).2 hxy

/-- Where the prefixes are distinct, a key determines the plan and the place in it. -/
theorem place_inj {tagged : List (String × AgentPlan)} (hkeyed : ∀ x ∈ tagged, Keyed x.1 x.2)
    (htools : PlainTools (tagged.map Prod.snd)) (hnodup : (tagged.map Prod.fst).Nodup)
    {g g' i i' : ℕ} {x y : String × AgentPlan} {action action' : PlannedAction}
    (hx : tagged[g]? = some x) (hy : tagged[g']? = some y) (hi : x.2.actions[i]? = some action)
    (hi' : y.2.actions[i']? = some action')
    (h : action.idempotencyKey = action'.idempotencyKey) : g = g' ∧ i = i' := by
  have hxmem := List.mem_of_getElem? hx
  have hymem := List.mem_of_getElem? hy
  rw [hkeyed x hxmem i action hi, hkeyed y hymem i' action' hi'] at h
  obtain ⟨hbase, -, hindex⟩ := keyAt_inj
    (htools _ (List.mem_map_of_mem hxmem) action (List.mem_of_getElem? hi))
    (htools _ (List.mem_map_of_mem hymem) action' (List.mem_of_getElem? hi')) h
  refine ⟨?_, hindex⟩
  have hlength : g < (tagged.map Prod.fst).length := by
    rw [List.length_map]
    exact (List.getElem?_eq_some_iff.1 hx).1
  refine (List.getElem?_inj hlength hnodup).1 ?_
  rw [List.getElem?_map, List.getElem?_map, hx, hy]
  exact congrArg some hbase

end Plans

section Generations

variable (registries : Registries) (workflow : WorkflowDefinition) (source : EventEnvelope)

/-- The plans of a run without sub-plans. The first is made for the source event, each other
one for the replan event of a stale action of an earlier plan; `replanned` lists the plan
and the place of these actions. -/
inductive Generations : List (ℕ × ℕ) → List AgentPlan → Prop
  | first {context : AgentContext} {contextSnapshotRef agentRunId : String} {plan : AgentPlan}
      (hsource : context.sourceEvent = source)
      (hplan : (createPlan registries context contextSnapshotRef workflow agentRunId
        {}).MayReturn plan) :
      Generations [] [plan]
  | replan {replanned : List (ℕ × ℕ)} {plans : List AgentPlan} {plan plan' : AgentPlan}
      {g i : ℕ} {action : PlannedAction} {d : Delivery} {context : AgentContext}
      {eventId reason contextSnapshotRef agentRunId : String}
      {staleEntities : Dict String StaleEntity}
      (hplans : Generations replanned plans) (hg : plans[g]? = some plan)
      (hi : plan.actions[i]? = some action) (hnew : (g, i) ∉ replanned)
      (hstale : d.action.idempotencyKey = action.idempotencyKey)
      (hsource : context.sourceEvent = .wrap (replanEvent eventId d staleEntities reason))
      (hplan : (createPlan registries context contextSnapshotRef workflow agentRunId
        {}).MayReturn plan') :
      Generations ((g, i) :: replanned) (plans ++ [plan'])

variable {registries workflow source} {replanned : List (ℕ × ℕ)} {plans : List AgentPlan}

/-- Every plan has a prefix of its own: the first one's, or the key of the action that it
was made again for. -/
structure Prefixes (base : String) (replanned : List (ℕ × ℕ))
    (tagged : List (String × AgentPlan)) : Prop where
  keyed : ∀ x ∈ tagged, Keyed x.1 x.2
  nodup : (tagged.map Prod.fst).Nodup
  base_le : ∀ x ∈ tagged, base.length ≤ x.1.length
  origin : ∀ x ∈ tagged, x.1 = base ∨ ∃ g i y action, (g, i) ∈ replanned ∧
    tagged[g]? = some y ∧ y.2.actions[i]? = some action ∧
      x.1 = action.idempotencyKey ++ ":replan"

theorem replan_inj {s t : String} (h : s ++ ":replan" = t ++ ":replan") : s = t := by
  have hlist := congrArg String.toList h
  rw [String.toList_append, String.toList_append, List.append_left_inj] at hlist
  exact String.toList_injective hlist

/-- A plan made again for a further action has a new prefix. -/
theorem Prefixes.replan {base : String} {tagged : List (String × AgentPlan)} {plan' : AgentPlan}
    {g i : ℕ} {x : String × AgentPlan} {action : PlannedAction}
    (h : Prefixes base replanned tagged) (htools : PlainTools (tagged.map Prod.snd))
    (hg : tagged[g]? = some x) (hi : x.2.actions[i]? = some action) (hnew : (g, i) ∉ replanned)
    (hplan : Keyed (action.idempotencyKey ++ ":replan") plan') :
    Prefixes base ((g, i) :: replanned)
      (tagged ++ [(action.idempotencyKey ++ ":replan", plan')]) := by
  have hxmem := List.mem_of_getElem? hg
  have hlonger : base.length < (action.idempotencyKey ++ ":replan").length := by
    have hbase := h.base_le x hxmem
    have hkey := length_keyAt x.1 action.toolName i
    rw [String.length_append, h.keyed x hxmem i action hi]
    omega
  have hkept : ∀ {k : ℕ} {y : String × AgentPlan}, tagged[k]? = some y →
      (tagged ++ [(action.idempotencyKey ++ ":replan", plan')])[k]? = some y := by
    intro k y hy
    rw [List.getElem?_append_left (List.getElem?_eq_some_iff.1 hy).1]
    exact hy
  constructor
  · intro y hy
    rcases List.mem_append.1 hy with hy | hy
    · exact h.keyed y hy
    · rw [List.mem_singleton.1 hy]
      exact hplan
  · rw [List.map_append, List.map_singleton, List.nodup_append]
    refine ⟨h.nodup, List.nodup_singleton _, fun s hs t ht => ?_⟩
    obtain ⟨y, hy, rfl⟩ := List.mem_map.1 hs
    rw [List.mem_singleton.1 ht]
    rcases h.origin y hy with hbase | ⟨g', i', z, action', hmem, hz, hi', horigin⟩
    · rw [hbase]
      intro heq
      exact absurd (congrArg String.length heq) (Nat.ne_of_lt hlonger)
    · rw [horigin]
      intro heq
      obtain ⟨rfl, rfl⟩ := place_inj h.keyed htools h.nodup hz hg hi' hi (replan_inj heq)
      exact hnew hmem
  · intro y hy
    rcases List.mem_append.1 hy with hy | hy
    · exact h.base_le y hy
    · rw [List.mem_singleton.1 hy]
      exact Nat.le_of_lt hlonger
  · intro y hy
    rcases List.mem_append.1 hy with hy | hy
    · refine (h.origin y hy).imp_right ?_
      rintro ⟨g', i', z, action', hmem, hz, hi', horigin⟩
      exact ⟨g', i', z, action', List.mem_cons_of_mem _ hmem, hkept hz, hi', horigin⟩
    · refine .inr ⟨g, i, x, action, List.mem_cons_self, hkept hg, hi, ?_⟩
      rw [List.mem_singleton.1 hy]

theorem Generations.prefixes (h : Generations registries workflow source replanned plans)
    (htools : PlainTools plans) :
    ∃ base tagged, tagged.map Prod.snd = plans ∧ Prefixes base replanned tagged := by
  induction h with
  | @first context _ agentRunId plan hsource hplan =>
      refine ⟨idempotencyPrefix context agentRunId none,
        [(idempotencyPrefix context agentRunId none, plan)], rfl, ?_⟩
      constructor
      · have hkeyed := createPlan_keyed hplan
        intro x hx
        rw [List.mem_singleton.1 hx]
        exact hkeyed
      · exact List.nodup_singleton _
      · intro x hx
        rw [List.mem_singleton.1 hx]
      · exact fun x hx => .inl (congrArg Prod.fst (List.mem_singleton.1 hx))
  | @replan replanned plans plan plan' g i action d context _ _ _ agentRunId _ hplans hg hi hnew
      hstale hsource hplan ih =>
      have htools' : PlainTools plans := fun p hp => htools p (List.mem_append_left _ hp)
      obtain ⟨base, tagged, rfl, hprefixes⟩ := ih htools'
      rw [List.getElem?_map] at hg
      obtain ⟨x, hx, rfl⟩ := Option.map_eq_some_iff.1 hg
      have hbase : idempotencyPrefix context agentRunId none =
          action.idempotencyKey ++ ":replan" := by
        unfold idempotencyPrefix
        dsimp only
        rw [hsource]
        change orElseText (some (d.action.idempotencyKey ++ ":replan")) agentRunId = _
        rw [hstale]
        refine if_neg fun hempty => ?_
        have hlength := congrArg String.length hempty
        simp at hlength
      have hkeyed := createPlan_keyed hplan
      rw [hbase] at hkeyed
      exact ⟨base, _, by simp, hprefixes.replan htools' hx hi hnew hkeyed⟩

/-- However often a run is planned again, its keys are distinct. -/
theorem Generations.keysOf_nodup
    (h : Generations registries workflow source replanned plans) (htools : PlainTools plans) :
    (keysOf plans).Nodup := by
  obtain ⟨base, tagged, rfl, hprefixes⟩ := h.prefixes htools
  rw [keysOf_nodup_iff hprefixes.keyed htools]
  exact (List.pairwise_map.1 hprefixes.nodup).imp fun hne heq => absurd heq hne

end Generations

section Nodes

variable (registries : Registries) (workflow : WorkflowDefinition) (source : EventEnvelope)
  (agentRunId : String)

/-- A plan made for a node of the run that the source event started. -/
def PlannedNode (node : SubTask) (plan : AgentPlan) : Prop :=
  ∃ context contextSnapshotRef, context.sourceEvent = source ∧
    (planForNode registries node context contextSnapshotRef workflow agentRunId).MayReturn plan

/-- The prefix of the keys of a node's plan. -/
def nodePrefix (node : SubTask) : String :=
  if node.nodeId = ROOT_NODE_ID then orElseText source.event.idempotencyKey agentRunId
  else subPlanId agentRunId node.nodeId

/-- A node has the root's name, the key of the source event is the sub-plan id of another
node, and the plans of the two use one tool at the same place. -/
def RootMeets (planned : List (SubTask × AgentPlan)) : Prop :=
  ∃ root ∈ planned, ∃ node ∈ planned, root.1.nodeId = ROOT_NODE_ID ∧
    node.1.nodeId ≠ ROOT_NODE_ID ∧
    source.event.idempotencyKey = some (subPlanId agentRunId node.1.nodeId) ∧
    Meet root.2 node.2

variable {registries workflow source agentRunId}

theorem PlannedNode.keyed {node : SubTask} {plan : AgentPlan}
    (h : PlannedNode registries workflow source agentRunId node plan) :
    Keyed (nodePrefix source agentRunId node) plan := by
  obtain ⟨context, contextSnapshotRef, rfl, hplan⟩ := h
  unfold planForNode at hplan
  unfold nodePrefix
  split at hplan
  next hroot =>
    have hkeyed := createPlan_keyed hplan
    rw [if_pos hroot]
    exact hkeyed
  next hroot =>
    obtain ⟨created, hcreated, hreturned⟩ := Program.mayReturn_bind.1 hplan
    obtain rfl := (Program.mayReturn_pure _).1 hreturned
    have hkeyed := createPlan_keyed hcreated
    rw [show idempotencyPrefix context agentRunId (some (subPlanId agentRunId node.nodeId)) =
      subPlanId agentRunId node.nodeId from if_pos (runId_ne_subPlanId _ _).symm] at hkeyed
    rw [if_neg hroot]
    exact hkeyed

theorem Meet.symm {plan other : AgentPlan} (h : Meet plan other) : Meet other plan := by
  obtain ⟨i, action, action', hi, hi', htool⟩ := h
  exact ⟨i, action', action, hi', hi, htool.symm⟩

/-- The root's prefix is a sub-plan id only where the source event has it as its key. -/
theorem orElseText_eq_subPlanId_iff {key : Option String} {nodeId : String} :
    orElseText key agentRunId = subPlanId agentRunId nodeId ↔
      key = some (subPlanId agentRunId nodeId) := by
  constructor
  · intro h
    cases key with
    | none => exact absurd h (runId_ne_subPlanId _ _)
    | some text =>
        unfold orElseText at h
        dsimp only at h
        split at h
        · exact absurd h (runId_ne_subPlanId _ _)
        · rw [h]
  · rintro rfl
    exact orElseText_subPlanId _ _ _

/-- Two nodes of different names share a prefix where one of them is named like the root. -/
theorem nodePrefix_eq_iff {node other : SubTask} (hne : node.nodeId ≠ other.nodeId) :
    nodePrefix source agentRunId node = nodePrefix source agentRunId other ↔
      (node.nodeId = ROOT_NODE_ID ∧
        source.event.idempotencyKey = some (subPlanId agentRunId other.nodeId)) ∨
      (other.nodeId = ROOT_NODE_ID ∧
        source.event.idempotencyKey = some (subPlanId agentRunId node.nodeId)) := by
  unfold nodePrefix
  by_cases hroot : node.nodeId = ROOT_NODE_ID
  · have hother : other.nodeId ≠ ROOT_NODE_ID := fun h => hne (hroot.trans h.symm)
    rw [if_pos hroot, if_neg hother, orElseText_eq_subPlanId_iff]
    simp [hroot, hother]
  · by_cases hother : other.nodeId = ROOT_NODE_ID
    · rw [if_neg hroot, if_pos hother, eq_comm, orElseText_eq_subPlanId_iff]
      simp [hroot, hother]
    · rw [if_neg hroot, if_neg hother]
      have hids : subPlanId agentRunId node.nodeId ≠ subPlanId agentRunId other.nodeId :=
        fun h => hne (subPlanId_inj h)
      simp [hroot, hother, hids]

/-- The keys of the plans of nodes with distinct names. -/
theorem keysOf_nodes_nodup_iff {planned : List (SubTask × AgentPlan)}
    (hnames : (planned.map (·.1.nodeId)).Nodup)
    (hplanned : ∀ x ∈ planned, PlannedNode registries workflow source agentRunId x.1 x.2)
    (htools : PlainTools (planned.map Prod.snd)) :
    (keysOf (planned.map Prod.snd)).Nodup ↔ ¬ RootMeets source agentRunId planned := by
  have hnames' := List.pairwise_map.1 hnames
  have hplans : (planned.map fun x => (nodePrefix source agentRunId x.1, x.2)).map Prod.snd =
      planned.map Prod.snd := by simp
  have hkeyed : ∀ x ∈ planned.map fun x => (nodePrefix source agentRunId x.1, x.2),
      Keyed x.1 x.2 := by
    intro x hx
    obtain ⟨node, hnode, rfl⟩ := List.mem_map.1 hx
    exact (hplanned node hnode).keyed
  rw [← hplans, keysOf_nodup_iff hkeyed (hplans.symm ▸ htools), List.pairwise_map]
  constructor
  · rintro hpairwise ⟨root, hroot, node, hnode, hrootName, hnodeName, hkey, hmeet⟩
    have hne : root ≠ node := fun h => hnodeName (h ▸ hrootName)
    have hsame : nodePrefix source agentRunId root.1 = nodePrefix source agentRunId node.1 :=
      (nodePrefix_eq_iff fun h => hnodeName (h ▸ hrootName)).2 (.inl ⟨hrootName, hkey⟩)
    have hsymm : Std.Symm fun x y : SubTask × AgentPlan => nodePrefix source agentRunId x.1 =
        nodePrefix source agentRunId y.1 → ¬ Meet x.2 y.2 :=
      ⟨fun x y hxy heq hmeet => hxy heq.symm hmeet.symm⟩
    exact hpairwise.forall hroot hnode hne hsame hmeet
  · intro hroot
    refine hnames'.imp_of_mem fun {x y} hx hy hne heq hmeet => hroot ?_
    rcases (nodePrefix_eq_iff hne).1 heq with ⟨hname, hkey⟩ | ⟨hname, hkey⟩
    · exact ⟨x, hx, y, hy, hname, fun h => hne (hname.trans h.symm), hkey, hmeet⟩
    · exact ⟨y, hy, x, hx, hname, fun h => hne (h.trans hname.symm), hkey, hmeet.symm⟩

/-- The keys of a run's plans are distinct, however often it is planned again; the keys of
the plans of its nodes are distinct unless a node is planned as the root and the source
event's key is another node's sub-plan id. -/
theorem keys_distinct_iff :
    (∀ replanned plans, Generations registries workflow source replanned plans →
      PlainTools plans → (keysOf plans).Nodup) ∧
    ∀ agentRunId (planned : List (SubTask × AgentPlan)), (planned.map (·.1.nodeId)).Nodup →
      (∀ x ∈ planned, PlannedNode registries workflow source agentRunId x.1 x.2) →
        PlainTools (planned.map Prod.snd) →
          ((keysOf (planned.map Prod.snd)).Nodup ↔ ¬ RootMeets source agentRunId planned) :=
  ⟨fun _ _ h htools => h.keysOf_nodup htools,
    fun _ _ hnames hplanned htools => keysOf_nodes_nodup_iff hnames hplanned htools⟩

end Nodes

section Sample

/-- A source event whose key is the sub-plan id of the node `a`. -/
def sampleKeyedSource : EventEnvelope :=
  .wrap { kind := .domain, eventId := "event", eventType := "story.created", workspaceId := "ws"
          idempotencyKey := some "run::a" }

def sampleNode (nodeId : String) : SubTask :=
  { nodeId := nodeId, skillIds := ["skill"], objective := "goal" }

def sampleKeyedContext : AgentContext :=
  { workspaceId := "ws", projectId := none, sourceEvent := sampleKeyedSource
    workflowId := "workflow" }

theorem plainTools_of_notify {plans : List AgentPlan}
    (h : ∀ plan ∈ plans, plan.actions.map (·.toolName) = ["notify", "notify"]) :
    PlainTools plans := by
  intro plan hplan action haction
  have hmem : action.toolName ∈ plan.actions.map (·.toolName) := List.mem_map_of_mem haction
  rw [h plan hplan] at hmem
  rcases List.mem_pair.1 hmem with htool | htool <;> rw [htool] <;> decide

/-- Plans of the nodes `a` and `b` and of a node that is named like the root. -/
theorem sample_planned :
    ∃ root a b, (PlannedNode sampleRegistries sampleWorkflow sampleKeyedSource "run"
        (sampleNode "root") root ∧
      PlannedNode sampleRegistries sampleWorkflow sampleKeyedSource "run" (sampleNode "a") a ∧
      PlannedNode sampleRegistries sampleWorkflow sampleKeyedSource "run" (sampleNode "b") b) ∧
      PlainTools [root, a, b] ∧ keysOf [root, a] =
        ["run::a:notify:1", "run::a:notify:2", "run::a:notify:1", "run::a:notify:2"] := by
  refine ⟨_, _, _, ⟨⟨sampleKeyedContext, "ref", rfl, .ok sampleProposal, rfl⟩,
    ⟨sampleKeyedContext, "ref", rfl, .ok sampleProposal, rfl⟩,
    ⟨sampleKeyedContext, "ref", rfl, .ok sampleProposal, rfl⟩⟩, plainTools_of_notify ?_, rfl⟩
  intro plan hplan
  simp only [List.mem_cons, List.not_mem_nil, or_false] at hplan
  rcases hplan with rfl | rfl | rfl <;> rfl

/-- A node planned as the root reuses the keys of the node `a`. -/
theorem root_reuses_keys :
    ¬ ∀ planned : List (SubTask × AgentPlan), (planned.map (·.1.nodeId)).Nodup →
      (∀ x ∈ planned,
        PlannedNode sampleRegistries sampleWorkflow sampleKeyedSource "run" x.1 x.2) →
        PlainTools (planned.map Prod.snd) → (keysOf (planned.map Prod.snd)).Nodup := by
  intro h
  obtain ⟨root, a, b, ⟨hroot, ha, -⟩, htools, hkeys⟩ := sample_planned
  have hnodup := h [(sampleNode "root", root), (sampleNode "a", a)] (by simp [sampleNode])
    (by simpa using ⟨hroot, ha⟩) fun plan hplan => htools plan (by simp at hplan ⊢; tauto)
  rw [show [(sampleNode "root", root), (sampleNode "a", a)].map Prod.snd = [root, a]
    from rfl, hkeys] at hnodup
  exact absurd hnodup (by decide)

/-- The plan of the workflow, for any source event. -/
theorem sample_created (context : AgentContext) :
    ∃ plan, (createPlan sampleRegistries context "ref" sampleWorkflow "run" {}).MayReturn plan ∧
      plan.actions.map (·.toolName) = ["notify", "notify"] :=
  ⟨_, ⟨.ok sampleProposal, rfl⟩, rfl⟩

/-- A plan, and the plan made again when its second action was stale. -/
theorem sample_generations :
    ∃ plan again, Generations sampleRegistries sampleWorkflow sampleKeyedSource [(0, 1)]
      [plan, again] ∧ PlainTools [plan, again] := by
  obtain ⟨plan, hplan, htools⟩ := sample_created sampleKeyedContext
  have hlength : 1 < plan.actions.length := by
    have hmap := congrArg List.length htools
    rw [List.length_map] at hmap
    rw [hmap]
    decide
  let stale : Delivery :=
    { envelope := sampleKeyedSource, plan := plan, action := plan.actions[1]
      context := sampleKeyedContext }
  let replan : EventEnvelope := .wrap (replanEvent "again" stale [] "stale")
  obtain ⟨again, hagain, htools'⟩ :=
    sample_created { sampleKeyedContext with sourceEvent := replan }
  refine ⟨plan, again, .replan (.first rfl hplan) rfl (List.getElem?_eq_getElem hlength)
    (List.not_mem_nil) rfl rfl hagain, plainTools_of_notify fun p hp => ?_⟩
  rcases List.mem_pair.1 hp with rfl | rfl
  · exact htools
  · exact htools'

/-- The keys of a plan and of the one made again are distinct, and so are those of two sibling
nodes. -/
theorem keys_distinct_sample :
    (∃ plan again, Generations sampleRegistries sampleWorkflow sampleKeyedSource [(0, 1)]
        [plan, again] ∧ (keysOf [plan, again]).Nodup) ∧
      ∃ a b, PlannedNode sampleRegistries sampleWorkflow sampleKeyedSource "run"
          (sampleNode "a") a ∧
        PlannedNode sampleRegistries sampleWorkflow sampleKeyedSource "run" (sampleNode "b") b ∧
          (keysOf [a, b]).Nodup := by
  constructor
  · obtain ⟨plan, again, hgenerations, htools⟩ := sample_generations
    exact ⟨plan, again, hgenerations, keys_distinct_iff.1 _ _ hgenerations htools⟩
  · obtain ⟨root, a, b, ⟨-, ha, hb⟩, htools, -⟩ := sample_planned
    refine ⟨a, b, ha, hb, ?_⟩
    refine (keys_distinct_iff.2 "run" [(sampleNode "a", a), (sampleNode "b", b)]
      (by simp [sampleNode]) (by simpa using ⟨ha, hb⟩)
      fun plan hplan => htools plan (List.mem_cons_of_mem _ hplan)).2 ?_
    rintro ⟨root, hmem, -, -, hname, -⟩
    rcases List.mem_pair.1 hmem with rfl | rfl <;> simp [sampleNode, ROOT_NODE_ID] at hname

end Sample

end PrismAgent
