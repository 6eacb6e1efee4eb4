import PrismAgent.ColdStart.Transport
import PrismAgent.Text.Joined

/-!
# Identities at the API

The API files an action under an id that is hashed from its plan id and its action id, the
step of a plan under one hashed from the plan id and the word `plan`, and a state record
under one hashed from its ids and the word of its kind. The ids are joined by colons, which
they may contain, so two identities can share a text where one splits it later.
-/

namespace PrismAgent

open Joined Function

/-- An action or the step of a plan. -/
inductive ApiName
  | action (planId actionId : String)
  | planStep (planId : String)
  deriving DecidableEq, Repr

namespace ApiName

/-- The plan id and what is joined to it. -/
def parts : ApiName → String × String
  | action planId actionId => (planId, actionId)
  | planStep planId => (planId, "plan")

def joined (name : ApiName) : String := name.parts.1 ++ ":" ++ name.parts.2

/-- The id under which the API files it. -/
def apiId (uuid5 : String → String) (name : ApiName) : String :=
  stableAgentRunUuid uuid5 [name.parts.1, name.parts.2]

/-- The plan id of one action goes on inside the id of the other, or an action has the id
of a plan step. -/
def Clashes : ApiName → ApiName → Prop
  | action planId actionId, action planId' actionId' =>
      Overlaps planId actionId planId' actionId' ∨ Overlaps planId' actionId' planId actionId
  | action planId actionId, planStep planId' =>
      (planId = planId' ∧ actionId = "plan") ∨ Overlaps planId actionId planId' "plan"
  | planStep planId', action planId actionId =>
      (planId = planId' ∧ actionId = "plan") ∨ Overlaps planId actionId planId' "plan"
  | planStep _, planStep _ => False

instance (x y : ApiName) : Decidable (x.Clashes y) := by
  unfold Clashes
  split <;> infer_instance

theorem apiId_of_plain {uuid5 : String → String} {name : ApiName}
    (h : parseUuid name.joined = none) : name.apiId uuid5 = uuid5 name.joined := by
  have htext : ":".intercalate [name.parts.1, name.parts.2] = name.joined := rfl
  unfold apiId stableAgentRunUuid
  dsimp only
  rw [htext, h]

/-- The texts of two different names are equal where the names clash. -/
theorem joined_eq_iff {x y : ApiName} (hxy : x ≠ y) : x.joined = y.joined ↔ x.Clashes y := by
  have hplan : ∀ {p p' a' : String}, ¬ Overlaps p "plan" p' a' := not_overlaps (by decide)
  cases x with
  | action planId actionId =>
      cases y with
      | action planId' actionId' =>
          have hne : ¬ (planId = planId' ∧ actionId = actionId') := by simpa using hxy
          simp only [joined, parts, colon_eq_iff, Clashes, hne, false_or]
      | planStep planId' =>
          simp only [joined, parts, colon_eq_iff, Clashes, hplan, or_false]
  | planStep planId =>
      cases y with
      | action planId' actionId' =>
          simp only [joined, parts, colon_eq_iff, Clashes, hplan, false_or, eq_comm]
      | planStep planId' =>
          have hne : planId ≠ planId' := by simpa using hxy
          simp only [joined, parts, colon_eq_iff, Clashes, hplan, hne, false_and, or_false]

end ApiName

/-- What a state record is a record of. -/
inductive RecordName
  | plan (planId : String)
  | taskGraph (planId : String)
  | contextSnapshot (planId snapshotId : String)
  | actionResult (planId actionId : String)
  | subAgentResult (runId nodeId : String)
  | idempotencyKey (key : String)
  deriving DecidableEq, Repr

namespace RecordName

/-- The ids and the words that are joined. -/
def parts : RecordName → List String
  | plan planId => [planId, "plan"]
  | taskGraph planId => [planId, "task_graph"]
  | contextSnapshot planId snapshotId => [planId, snapshotId, "context"]
  | actionResult planId actionId => [planId, actionId, "result"]
  | subAgentResult runId nodeId => [runId, nodeId, "sub_agent_result"]
  | idempotencyKey key => ["idempotency", key]

/-- The memory id under which the record is put. -/
def memoryId (api : StateApi) (name : RecordName) : String :=
  PrismApiStateStore.stateMemoryId api name.parts

/-- The first id and everything that is joined to it. -/
def headTail : RecordName → String × String
  | plan planId => (planId, "plan")
  | taskGraph planId => (planId, "task_graph")
  | contextSnapshot planId snapshotId => (planId, snapshotId ++ ":" ++ "context")
  | actionResult planId actionId => (planId, actionId ++ ":" ++ "result")
  | subAgentResult runId nodeId => (runId, nodeId ++ ":" ++ "sub_agent_result")
  | idempotencyKey key => ("idempotency", key)

/-- Everything in front of the last part, and the last part. -/
def initLast : RecordName → String × String
  | plan planId => (planId, "plan")
  | taskGraph planId => (planId, "task_graph")
  | contextSnapshot planId snapshotId => (planId ++ ":" ++ snapshotId, "context")
  | actionResult planId actionId => (planId ++ ":" ++ actionId, "result")
  | subAgentResult runId nodeId => (runId ++ ":" ++ nodeId, "sub_agent_result")
  | idempotencyKey key => ("idempotency", key)

/-- A record of another kind whose text an idempotency key repeats: its run id is
`idempotency` or goes on behind that word. -/
def KeyClashes (key : String) (name : RecordName) : Prop :=
  (name.headTail.1 = "idempotency" ∧ key = name.headTail.2) ∨
    Overlaps "idempotency" key name.headTail.1 name.headTail.2

instance (key : String) (name : RecordName) : Decidable (KeyClashes key name) := by
  unfold KeyClashes
  infer_instance

/-- Two records of one kind with two ids where the first id of one goes on inside the
second id of the other, or an idempotency key that repeats a record's text. -/
def Clashes : RecordName → RecordName → Prop
  | contextSnapshot planId id, contextSnapshot planId' id' =>
      Overlaps planId id planId' id' ∨ Overlaps planId' id' planId id
  | actionResult planId id, actionResult planId' id' =>
      Overlaps planId id planId' id' ∨ Overlaps planId' id' planId id
  | subAgentResult planId id, subAgentResult planId' id' =>
      Overlaps planId id planId' id' ∨ Overlaps planId' id' planId id
  | idempotencyKey _, idempotencyKey _ => False
  | idempotencyKey key, name => KeyClashes key name
  | name, idempotencyKey key => KeyClashes key name
  | _, _ => False

instance (x y : RecordName) : Decidable (x.Clashes y) := by
  unfold Clashes
  split <;> infer_instance

/-- The text of a record behind the word `state`. -/
def joined (name : RecordName) : String := name.headTail.1 ++ ":" ++ name.headTail.2

theorem joined_eq_initLast (name : RecordName) :
    name.joined = name.initLast.1 ++ ":" ++ name.initLast.2 := by
  cases name with
  | contextSnapshot _ _ => simp only [joined, headTail, initLast, String.append_assoc]
  | actionResult _ _ => simp only [joined, headTail, initLast, String.append_assoc]
  | subAgentResult _ _ => simp only [joined, headTail, initLast, String.append_assoc]
  | _ => rfl

theorem memoryId_eq (api : StateApi) (name : RecordName) :
    name.memoryId api = api.uuid5 ("state" ++ (":" ++ name.joined)) := by
  cases name with
  | contextSnapshot _ _ =>
      rw [memoryId, parts, PrismApiStateStore.stateMemoryId_triple]
      simp only [joined, headTail, String.append_assoc]
  | actionResult _ _ =>
      rw [memoryId, parts, PrismApiStateStore.stateMemoryId_triple]
      simp only [joined, headTail, String.append_assoc]
  | subAgentResult _ _ =>
      rw [memoryId, parts, PrismApiStateStore.stateMemoryId_triple]
      simp only [joined, headTail, String.append_assoc]
  | plan _ => rw [memoryId, parts, PrismApiStateStore.stateMemoryId_pair]; rfl
  | taskGraph _ => rw [memoryId, parts, PrismApiStateStore.stateMemoryId_pair]; rfl
  | idempotencyKey _ => rw [memoryId, parts, PrismApiStateStore.stateMemoryId_pair]; rfl

theorem memoryId_eq_iff {api : StateApi} (huuid5 : Injective api.uuid5) {x y : RecordName} :
    x.memoryId api = y.memoryId api ↔ x.joined = y.joined := by
  rw [memoryId_eq, memoryId_eq]
  constructor
  · intro h
    have htext := congrArg String.toList (huuid5 h)
    simpa [String.toList_append, String.toList_inj] using htext
  · intro h
    rw [h]

theorem initLast_eq {x y : RecordName} (hx : ':' ∉ x.initLast.2.toList)
    (hy : ':' ∉ y.initLast.2.toList) (h : x.joined = y.joined) : x.initLast = y.initLast := by
  rw [joined_eq_initLast, joined_eq_initLast] at h
  exact Prod.ext_iff.2 (colon_inj hx hy h)

/-- Records of one kind with two ids. -/
theorem pair_eq_iff {p i p' i' word : String} (hne : ¬ (p = p' ∧ i = i')) :
    p ++ ":" ++ (i ++ ":" ++ word) = p' ++ ":" ++ (i' ++ ":" ++ word) ↔
      Overlaps p i p' i' ∨ Overlaps p' i' p i := by
  have hassoc : ∀ p i : String,
      p ++ ":" ++ (i ++ ":" ++ word) = p ++ ":" ++ i ++ (":" ++ word) := by
    intro p i
    simp only [String.append_assoc]
  have hcancel : ∀ s t u : String, s ++ u = t ++ u ↔ s = t := by
    intro s t u
    rw [← String.toList_inj, String.toList_append, String.toList_append, List.append_left_inj,
      String.toList_inj]
  rw [hassoc, hassoc, hcancel, colon_eq_iff]
  simp only [hne, false_or]

/-- An idempotency key and a record of another kind. -/
theorem key_eq_iff {key : String} {name : RecordName} :
    (idempotencyKey key).joined = name.joined ↔ KeyClashes key name := by
  have hword : ¬ Overlaps name.headTail.1 name.headTail.2 "idempotency" key :=
    not_overlaps_left (by decide)
  have hkey : (idempotencyKey key).joined = "idempotency" ++ ":" ++ key := rfl
  rw [hkey]
  unfold joined KeyClashes
  rw [colon_eq_iff, eq_comm]
  simp only [hword, or_false]

theorem not_joined_eq {x y : RecordName} (hx : ':' ∉ x.initLast.2.toList)
    (hy : ':' ∉ y.initLast.2.toList) (hword : x.initLast.2 ≠ y.initLast.2) :
    x.joined ≠ y.joined :=
  fun h => hword (congrArg Prod.snd (initLast_eq hx hy h))

/-- The texts of two different records are equal where the records clash. -/
theorem joined_eq_iff {x y : RecordName} (hxy : x ≠ y) : x.joined = y.joined ↔ x.Clashes y := by
  cases x with
  | plan planId =>
      cases y with
      | plan planId' =>
          refine iff_of_false (fun h => hxy ?_) id
          rw [show planId = planId' from
            congrArg Prod.fst (initLast_eq (by simp [initLast]) (by simp [initLast]) h)]
      | idempotencyKey key => exact eq_comm.trans key_eq_iff
      | _ => exact iff_of_false (not_joined_eq (by simp [initLast]) (by simp [initLast])
          (by simp [initLast])) id
  | taskGraph planId =>
      cases y with
      | taskGraph planId' =>
          refine iff_of_false (fun h => hxy ?_) id
          rw [show planId = planId' from
            congrArg Prod.fst (initLast_eq (by simp [initLast]) (by simp [initLast]) h)]
      | idempotencyKey key => exact eq_comm.trans key_eq_iff
      | _ => exact iff_of_false (not_joined_eq (by simp [initLast]) (by simp [initLast])
          (by simp [initLast])) id
  | contextSnapshot planId snapshotId =>
      cases y with
      | contextSnapshot planId' snapshotId' =>
          have hne : ¬ (planId = planId' ∧ snapshotId = snapshotId') := by simpa using hxy
          exact pair_eq_iff hne
      | idempotencyKey key => exact eq_comm.trans key_eq_iff
      | _ => exact iff_of_false (not_joined_eq (by simp [initLast]) (by simp [initLast])
          (by simp [initLast])) id
  | actionResult planId actionId =>
      cases y with
      | actionResult planId' actionId' =>
          have hne : ¬ (planId = planId' ∧ actionId = actionId') := by simpa using hxy
          exact pair_eq_iff hne
      | idempotencyKey key => exact eq_comm.trans key_eq_iff
      | _ => exact iff_of_false (not_joined_eq (by simp [initLast]) (by simp [initLast])
          (by simp [initLast])) id
  | subAgentResult runId nodeId =>
      cases y with
      | subAgentResult runId' nodeId' =>
          have hne : ¬ (runId = runId' ∧ nodeId = nodeId') := by simpa using hxy
          exact pair_eq_iff hne
      | idempotencyKey key => exact eq_comm.trans key_eq_iff
      | _ => exact iff_of_false (not_joined_eq (by simp [initLast]) (by simp [initLast])
          (by simp [initLast])) id
  | idempotencyKey key =>
      cases y with
      | idempotencyKey key' =>
          refine iff_of_false (fun h => hxy ?_) id
          have htext := congrArg String.toList h
          have hkeys : key = key' := by
            simpa [joined, headTail, String.toList_append, String.toList_inj] using htext
          rw [hkeys]
      | _ => exact key_eq_iff

/-- Two different records that do not clash have two memory ids. -/
theorem memoryId_ne {api : StateApi} (huuid5 : Injective api.uuid5) {x y : RecordName}
    (hxy : x ≠ y) (hclash : ¬ x.Clashes y) : x.memoryId api ≠ y.memoryId api := by
  rw [Ne, memoryId_eq_iff huuid5, joined_eq_iff hxy]
  exact hclash

end RecordName

section Distinct

variable {uuid5 : String → String} (huuid5 : Injective uuid5)

include huuid5

/-- Two different actions or plan steps have distinct ids if and only if they do not clash,
and two different state records have distinct memory ids if and only if they do not. -/
theorem identities_distinct_iff :
    (∀ x y : ApiName, x ≠ y → parseUuid x.joined = none → parseUuid y.joined = none →
      (x.apiId uuid5 ≠ y.apiId uuid5 ↔ ¬ x.Clashes y)) ∧
    ∀ api : StateApi, api.uuid5 = uuid5 → ∀ x y : RecordName, x ≠ y →
      (x.memoryId api ≠ y.memoryId api ↔ ¬ x.Clashes y) := by
  constructor
  · intro x y hxy hx hy
    rw [ApiName.apiId_of_plain hx, ApiName.apiId_of_plain hy, huuid5.ne_iff,
      ← ApiName.joined_eq_iff hxy]
  · rintro api rfl x y hxy
    rw [← RecordName.joined_eq_iff hxy, Ne, RecordName.memoryId_eq_iff huuid5]

end Distinct

/-- An action of a sub-plan and an action of the run's own plan share one id. -/
theorem subplan_action_collides :
    ¬ ∀ uuid5 : String → String, Injective uuid5 → ∀ first second : PlannedAction,
      (first.planId, first.actionId) ≠ (second.planId, second.actionId) →
        parseUuid (first.planId ++ ":" ++ first.actionId) = none →
          parseUuid (second.planId ++ ":" ++ second.actionId) = none →
            actionApiId uuid5 first ≠ actionApiId uuid5 second := by
  intro h
  refine h id injective_id
    { actionId := "1", planId := "run::node", actionType := "mutation", toolName := "tool"
      instruction := "", idempotencyKey := "a" }
    { actionId := ":node:1", planId := "run", actionType := "mutation", toolName := "tool"
      instruction := "", idempotencyKey := "b" }
    (by decide) (by decide) (by decide) (by decide)

/-- Actions and plan steps of a run and of the sub-plan of a node. -/
def runNames : List ApiName :=
  [.planStep "run", .action "run" "1", .action "run" "2", .planStep "run::node",
    .action "run::node" "1", .action "run::node" "2"]

/-- The records of such a run. -/
def runRecords : List RecordName :=
  [.plan "run", .plan "run::node", .taskGraph "run", .contextSnapshot "run" "snapshot",
    .actionResult "run" "1", .actionResult "run::node" "1", .subAgentResult "run" "node",
    .idempotencyKey "run:notify:1"]

/-- All identities of a run and of its node are told apart. -/
theorem identities_distinct_sample :
    (runNames.map (·.apiId id)).Nodup ∧
      (runRecords.map (·.memoryId ⟨fun _ _ _ => {}, id⟩)).Nodup := by
  obtain ⟨hnames, hrecords⟩ := identities_distinct_iff injective_id
  have hplain : ∀ name ∈ runNames, parseUuid name.joined = none := by decide
  have hapart : runNames.Pairwise fun x y => x ≠ y ∧ ¬ x.Clashes y := by decide
  have hapart' : runRecords.Pairwise fun x y => x ≠ y ∧ ¬ x.Clashes y := by decide
  constructor
  · exact List.pairwise_map.2 (hapart.imp_of_mem fun hx hy h =>
      (hnames _ _ h.1 (hplain _ hx) (hplain _ hy)).2 h.2)
  · exact List.pairwise_map.2 (hapart'.imp fun h => (hrecords _ rfl _ _ h.1).2 h.2)

end PrismAgent
