import PrismAgent.Domain.Errors
import PrismAgent.Domain.Policies

/-!
# Definitions and registries

The declarative workflow, skill and tool definitions and the registries that
look them up. Of the prompt texts, which only the language model reads, nothing
is kept.
-/

namespace PrismAgent

structure OrchestrationNodeDef where
  node : String := ""
  skill : Option String := none
  skills : List String := []
  objective : String := ""
  contextScope : List String := []
  dependsOn : List String := []
  modelTier : Option String := none
  deriving DecidableEq, Repr

/-- The declared skills, the single `skill` first when it is not among them. -/
def OrchestrationNodeDef.skillIds (nodeDef : OrchestrationNodeDef) : List String :=
  match nodeDef.skill with
  | some skill =>
      if skill ≠ "" ∧ skill ∉ nodeDef.skills then skill :: nodeDef.skills else nodeDef.skills
  | none => nodeDef.skills

inductive OrchestrationMode
  | hybrid
  | static
  | dynamic
  deriving DecidableEq, Repr

structure OrchestrationDef where
  mode : OrchestrationMode := .static
  defaultGraph : List OrchestrationNodeDef := []
  synthesizer : Option OrchestrationNodeDef := none
  deriving DecidableEq, Repr

structure WorkflowPromptDefinition where
  id : String
  version : String
  goal : String
  requiredContext : List String := []
  triggerTypes : List String := []
  requiredSkills : List String := []
  defaultExecutionMode : String := "suggest"
  approvalPolicy : Dict String String := []
  maxRecursionDepth : ℕ := 10
  orchestration : Option OrchestrationDef := none
  deriving DecidableEq, Repr

structure SkillPromptDefinition where
  id : String
  version : String
  allowedTools : List String := []
  modelTier : String := "pro"
  deriving DecidableEq, Repr

structure ToolPromptDefinition where
  id : String
  version : String
  approvalPolicy : String := "auto_commit"
  deriving DecidableEq, Repr

structure WorkflowDefinition where
  id : String
  triggerTypes : List String
  requiredSkills : List String
  promptId : String
  promptVersion : String
  goal : String := ""
  defaultExecutionMode : String := "suggest"
  approvalPolicy : Dict String String := []
  approvalPolicy_nodup : (Dict.keys approvalPolicy).Nodup := by decide
  maxRecursionDepth : ℕ := 10
  orchestration : Option OrchestrationDef := none
  deriving DecidableEq, Repr

def WorkflowDefinition.workflowId (workflow : WorkflowDefinition) : String := workflow.id

/-- The prompts of the workflows, by id and version. -/
structure PromptRegistry where
  workflows : Dict (String × String) WorkflowPromptDefinition := []

def PromptRegistry.getWorkflow (registry : PromptRegistry) (promptId version : String) :
    Except Exc WorkflowPromptDefinition :=
  match registry.workflows.lookup (promptId, version) with
  | some prompt => .ok prompt
  | none => .error (.keyError ("Workflow prompt not registered: " ++ promptId ++ ":" ++ version))

structure SkillRegistry where
  skills : Dict String SkillPromptDefinition := []

namespace SkillRegistry

def get (registry : SkillRegistry) (skillId : String) : Except Exc SkillPromptDefinition :=
  match registry.skills.lookup skillId with
  | some skill => .ok skill
  | none => .error (.keyError ("Skill not registered: " ++ skillId))

def select (registry : SkillRegistry) (skillIds : List String) :
    Except Exc (List SkillPromptDefinition) :=
  skillIds.mapM registry.get

/-- The tools not seen before, in order. -/
def addUnseen (allowedTools : List String) (toolNames : List String) : List String :=
  toolNames.foldl (fun acc toolName => if toolName ∈ acc then acc else acc ++ [toolName])
    allowedTools

/-- The union of the tools of the selected skills, each listed once. -/
def allowedToolsFor (registry : SkillRegistry) (skillIds : List String) :
    Except Exc (List String) := do
  let skills ← registry.select skillIds
  return skills.foldl (fun acc skill => addUnseen acc skill.allowedTools) []

def modelTier (registry : SkillRegistry) (skillId : String) : Except Exc String :=
  match registry.skills.lookup skillId with
  | some skill => .ok skill.modelTier
  | none => .error (.keyError ("Skill definition not registered: " ++ skillId))

end SkillRegistry

/-- The registered tools. What a tool does when it is executed is not part of
its registration. -/
structure ToolRegistry where
  tools : Dict String ToolPromptDefinition := []

namespace ToolRegistry

def get (registry : ToolRegistry) (name : String) : Except Exc ToolPromptDefinition :=
  match registry.tools.lookup name with
  | some tool => .ok tool
  | none => .error (.keyError ("Tool not registered: " ++ name))

def select (registry : ToolRegistry) (names : List String) :
    Except Exc (List ToolPromptDefinition) :=
  names.mapM registry.get

def definition (registry : ToolRegistry) (name : String) : Except Exc ToolPromptDefinition :=
  match registry.tools.lookup name with
  | some tool => .ok tool
  | none => .error (.keyError ("Tool definition not registered: " ++ name))

end ToolRegistry

structure WorkflowRegistry where
  byId : Dict String WorkflowDefinition := []
  byTrigger : Dict String WorkflowDefinition := []

namespace WorkflowRegistry

def get (registry : WorkflowRegistry) (workflowId : String) : Except Exc WorkflowDefinition :=
  match registry.byId.lookup workflowId with
  | some workflow => .ok workflow
  | none => .error (.keyError ("Workflow not registered: " ++ workflowId))

def getByTrigger (registry : WorkflowRegistry) (triggerType : String) :
    Option WorkflowDefinition :=
  registry.byTrigger.lookup triggerType

end WorkflowRegistry

/-- The registries that one process is built with. -/
structure Registries where
  workflows : WorkflowRegistry := {}
  prompts : PromptRegistry := {}
  skills : SkillRegistry := {}
  tools : ToolRegistry := {}

structure RouteResult where
  decision : TriggerPolicyDecision
  workflow : Option WorkflowDefinition

/-- `EventRouter.route`. -/
def route (registry : WorkflowRegistry) (envelope : EventEnvelope) : RouteResult :=
  let decision := PMTriggerPolicy.evaluate envelope.event
  if decision.allowed then
    { decision := decision, workflow := registry.getByTrigger decision.triggerKey }
  else { decision := decision, workflow := none }

end PrismAgent
