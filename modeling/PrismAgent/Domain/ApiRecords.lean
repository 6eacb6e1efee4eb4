import PrismAgent.Domain.AgentRun
import PrismAgent.Domain.Errors
import PrismAgent.Text.Words

/-!
# Steps and actions as the API files them

The rest of `domain/agent_run.py`: status, order and title of a step, type and target of an
action.
-/

namespace PrismAgent

def TARGET_TYPES_BY_ID_FIELD : List (String × String) :=
  [("itemId", "work_item"), ("workItemId", "work_item"), ("sprintId", "sprint")]

/-- `s[:n]`. -/
def clip (n : ℕ) (s : String) : String := String.ofList (s.toList.take n)

/-- `" ".join(s.split())`. -/
def joinWords (s : String) : String :=
  String.ofList ([' '].intercalate (Words.words isWhiteSpace s.toList))

def stepStatusToApi : ActionStatus → String
  | .completed => "completed"
  | .failed | .stale => "failed"
  | .skipped => "skipped"
  | .running => "running"
  | .pending | .requiresApproval => "pending"

/-- Where the action stands in its plan, counted from one. -/
def actionStepOrder (plan : AgentPlan) (action : PlannedAction) : Except Exc ℕ :=
  match plan.actions.findIdx? fun candidate => candidate.actionId = action.actionId with
  | some index => .ok (index + 1)
  | none =>
      .error (.valueError
        ("Action " ++ action.actionId ++ " is not part of plan " ++ plan.planId ++ "."))

def actionStepTitle (action : PlannedAction) : String :=
  joinWords (orElseText (some (strip action.instruction)) action.toolName)

def actionApiType (action : PlannedAction) : String :=
  clip 50 (orElseText (some action.toolName) (orElseText (some action.actionType) "agent_action"))

/-- `_uuid_string`. -/
def uuidString (value : Option String) : Option String := value.bind parseUuid

/-- A reference `type:id` whose id is a UUID. -/
def targetRef (input : Fields) : Option (String × String) :=
  (firstText input ["target_entity_ref", "targetEntityRef"]).bind fun ref =>
    let (type, rest) := ref.toList.span (· ≠ ':')
    match rest with
    | [] => none
    | _ :: id => (parseUuid (String.ofList id)).map fun uuid => (String.ofList type, uuid)

def actionTargetType (action : PlannedAction) (targetId : Option String) : String :=
  match targetId with
  | none => "tool"
  | some _ =>
      match firstText action.input ["targetType", "target_type"] with
      | some explicit => clip 50 explicit
      | none =>
          match targetRef action.input with
          | some (type, _) => clip 50 type
          | none =>
              match TARGET_TYPES_BY_ID_FIELD.find? fun field =>
                  (uuidString (firstText action.input [field.1])).isSome with
              | some (_, type) => type
              | none => "tool"

def actionTargetId (action : PlannedAction) : Option String :=
  match firstText action.input ["targetId", "target_id", "itemId", "workItemId", "sprintId"] with
  | some value => parseUuid value
  | none => (targetRef action.input).map (·.2)

theorem actionStepOrder_of_mem {plan : AgentPlan} {action : PlannedAction}
    (h : action.actionId ∈ plan.actions.map (·.actionId)) :
    ∃ index, actionStepOrder plan action = .ok index := by
  obtain ⟨a, ha, hid⟩ := List.mem_map.1 h
  unfold actionStepOrder
  cases hfind : plan.actions.findIdx? fun candidate => candidate.actionId = action.actionId with
  | some index => exact ⟨index + 1, rfl⟩
  | none =>
      have hnone := List.findIdx?_eq_none_iff.1 hfind a ha
      rw [hid] at hnone
      exact absurd hnone (by simp)

end PrismAgent
