import PrismAgent.Capabilities.WorkitemTools
import PrismAgent.Domain.Errors

/-!
# The planning agent

`RuntimePlanningAgent.generate_plan`: the language model is asked up to three times
for a plan. A proposal counts with its typed inputs materialized; it is given back
for another attempt while it has a defect, and once for a finding of the quality
review.
-/

namespace PrismAgent

def PLAN_GENERATION_ATTEMPTS : ℕ := 3

/-- What one attempt depends on: the model's structured output or what asking for it
raised, whether the time budget is spent when the attempt reads the clock, and whether
the generation left time for a review. -/
structure PlanningAttempt where
  answer : Except Exc AgentPlan
  budgetSpent : Bool := false
  reviewable : Bool := true

/-- `_plan_defect` and, against the entities of the context, `plan_quality_issues`. -/
structure PlanReview where
  defect : AgentPlan → Option String
  qualityIssues : AgentPlan → List String

namespace RuntimePlanningAgent

variable (loads : String → Option Json) (review : PlanReview) (attempts : ℕ → PlanningAttempt)

/-- The proposal that the attempts settle on, with `left` attempts after the next one. -/
def acceptedFrom : ℕ → Bool → Except Exc AgentPlan
  | 0, _ => (attempts PLAN_GENERATION_ATTEMPTS).answer
  | left + 1, qualityReviewUsed =>
      let attempt := attempts (PLAN_GENERATION_ATTEMPTS - (left + 1))
      match attempt.answer with
      | .error x =>
          if attempt.budgetSpent then .error x else acceptedFrom left qualityReviewUsed
      | .ok proposed =>
          let plan := materializeTypedActionInputs loads proposed
          if (review.defect plan).isSome then
            if attempt.budgetSpent then .ok proposed else acceptedFrom left qualityReviewUsed
          else if !qualityReviewUsed && !attempt.budgetSpent && attempt.reviewable &&
              !(review.qualityIssues plan).isEmpty then
            acceptedFrom left true
          else .ok proposed

def accepted : Except Exc AgentPlan :=
  acceptedFrom loads review attempts (PLAN_GENERATION_ATTEMPTS - 1) false

def generatePlan : Except Exc AgentPlan :=
  (accepted loads review attempts).map (materializeTypedActionInputs loads)

end RuntimePlanningAgent

end PrismAgent
