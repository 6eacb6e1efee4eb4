import PrismAgent.Capabilities.PlanQuality
import PrismAgent.Planning.Agent
import PrismAgent.Planning.Defects

/-!
# Generating a plan

The loop of `RuntimePlanningAgent.generate_plan` with all that it keeps from one attempt to the
next, and the calls that it makes. A plan without a defect is kept, unless the critic sends it
back and no later attempt produces another one.
-/

namespace PrismAgent

def PLANNING_TIME_BUDGET_SECONDS : ℚ := 180

def CRITIC_SKIP_GENERATION_SECONDS : ℚ := 60

/-- The readings of the monotonic clock, in seconds: when planning starts, and in each attempt
when it starts, when the generation has ended and when the budget is checked. -/
structure PlanningClock where
  startedAt : ℚ
  attemptStartedAt : ℕ → ℚ
  generatedAt : ℕ → ℚ
  checkedAt : ℕ → ℚ
  startedAt_le : startedAt ≤ attemptStartedAt 1
  attemptStartedAt_le : ∀ attempt, attemptStartedAt attempt ≤ generatedAt attempt
  generatedAt_le : ∀ attempt, generatedAt attempt ≤ checkedAt attempt
  checkedAt_le : ∀ attempt, checkedAt attempt ≤ attemptStartedAt (attempt + 1)

namespace PlanningClock

variable (clock : PlanningClock) (attempt : ℕ)

/-- `_budget_spent`. -/
def BudgetSpent : Prop :=
  PLANNING_TIME_BUDGET_SECONDS < clock.checkedAt attempt - clock.startedAt

/-- The generation left time for a review. -/
def Reviewable : Prop :=
  clock.generatedAt attempt - clock.attemptStartedAt attempt ≤ CRITIC_SKIP_GENERATION_SECONDS

instance : Decidable (clock.BudgetSpent attempt) := inferInstanceAs (Decidable (_ < _))

instance : Decidable (clock.Reviewable attempt) := inferInstanceAs (Decidable (_ ≤ _))

variable {clock attempt}

/-- A budget that is spent stays spent. -/
theorem BudgetSpent.succ (h : clock.BudgetSpent attempt) : clock.BudgetSpent (attempt + 1) := by
  have hstart := clock.checkedAt_le attempt
  have hgeneration := clock.attemptStartedAt_le (attempt + 1)
  have hcheck := clock.generatedAt_le (attempt + 1)
  unfold BudgetSpent at h ⊢
  grind

/-- A budget that is left was left before. -/
theorem not_budgetSpent_of_le {earlier : ℕ} (hle : earlier ≤ attempt)
    (h : ¬clock.BudgetSpent attempt) : ¬clock.BudgetSpent earlier := by
  induction hle with
  | refl => exact h
  | step _ ih => exact ih fun hspent => h hspent.succ

end PlanningClock

/-- A call of the generation: the feedback in its prompt, and what came of it. -/
structure GenerationCall where
  feedback : Option String
  answer : Except Exc AgentPlan

/-- The variables of the loop, with the calls and the review rounds so far. -/
structure PlanningState where
  plan : Option AgentPlan := none
  qualityReviewUsed : Bool := false
  retryFeedback : Option String := none
  calls : List GenerationCall := []
  reviews : ℕ := 0

/-- What `generate_plan` returns or raises, and the calls and review rounds that it took. -/
structure PlanningRun where
  result : Except Exc (Option AgentPlan)
  calls : List GenerationCall
  reviews : ℕ

namespace RuntimePlanningAgent

/-- `_quality_review_feedback`. -/
def qualityReviewFeedback (issues : List String) : String :=
  "A reviewer found these problems in your previous plan:\n" ++
    "\n".intercalate (issues.mapIdx fun index issue => toString (index + 1) ++ ". " ++ issue) ++
    "\n" ++ "Regenerate the plan fixing every problem above while keeping the rest of " ++
    "its content."

section Loop

variable (rules : TextRules) (loads : String → Option Json) (entities : Fields)
  (clock : PlanningClock) (answers : ℕ → Except Exc AgentPlan)

/-- What the critic finds in a plan without a defect, if it is asked. -/
def reviewIssues (attempt : ℕ) (s : PlanningState) (plan : AgentPlan) : List String :=
  if s.qualityReviewUsed = false ∧ attempt < PLAN_GENERATION_ATTEMPTS ∧
      ¬clock.BudgetSpent attempt ∧ clock.Reviewable attempt then
    planQualityIssues rules loads plan entities
  else []

/-- One attempt, after its call: what the loop returns or raises (left), or the variables with
which it continues (right). -/
def settleAttempt (attempt : ℕ) (s : PlanningState) : Except Exc AgentPlan ⊕ PlanningState :=
  match answers attempt with
  | .error x =>
      if PLAN_GENERATION_ATTEMPTS ≤ attempt ∨ clock.BudgetSpent attempt then .inl (.error x)
      else .inr s
  | .ok proposed =>
      let plan := materializeTypedActionInputs loads proposed
      match planDefect loads plan with
      | some defect =>
          if clock.BudgetSpent attempt then .inl (.ok plan)
          else .inr { s with plan := some plan, retryFeedback := some defect }
      | none =>
          let issues := reviewIssues rules loads entities clock attempt s plan
          if issues = [] then .inl (.ok plan)
          else
            .inr { s with
              plan := some plan
              qualityReviewUsed := true
              retryFeedback := some (qualityReviewFeedback issues)
              reviews := s.reviews + 1 }

/-- Note a call of the generation. -/
def called (s : PlanningState) (answer : Except Exc AgentPlan) : PlanningState :=
  { s with calls := s.calls ++ [⟨s.retryFeedback, answer⟩] }

/-- The attempts from one on, with so many of them left. -/
def generateFrom : ℕ → ℕ → PlanningState → PlanningRun
  | _, 0, s => ⟨.ok s.plan, s.calls, s.reviews⟩
  | attempt, left + 1, s =>
      let s := called s (answers attempt)
      match settleAttempt rules loads entities clock answers attempt s with
      | .inl result => ⟨result.map some, s.calls, s.reviews⟩
      | .inr s => generateFrom (attempt + 1) left s

/-- `generate_plan`: the variables start afresh, and no feedback is left behind. -/
def generation : PlanningRun :=
  generateFrom rules loads entities clock answers 1 PLAN_GENERATION_ATTEMPTS {}

end Loop

section Outcomes

variable (rules : TextRules) (loads : String → Option Json) (entities : Fields)
  (clock : PlanningClock) (answers : ℕ → Except Exc AgentPlan)

/-- A call produced a plan without a defect. -/
def Good (answer : Except Exc AgentPlan) : Prop :=
  ∃ proposed, answer = .ok proposed ∧
    planDefect loads (materializeTypedActionInputs loads proposed) = none

/-- A plan without a defect is returned. -/
def Kept (result : Except Exc (Option AgentPlan)) : Prop :=
  ∃ plan, result = .ok (some plan) ∧ planDefect loads plan = none

/-- The critic would send the plan of an attempt back: it has no defect, another attempt is
left, there is time for a review, and the review finds something. -/
def SentBack (attempt : ℕ) : Prop :=
  attempt < PLAN_GENERATION_ATTEMPTS ∧ ¬clock.BudgetSpent attempt ∧ clock.Reviewable attempt ∧
    ∃ proposed, answers attempt = .ok proposed ∧
      planDefect loads (materializeTypedActionInputs loads proposed) = none ∧
      planQualityIssues rules loads (materializeTypedActionInputs loads proposed) entities ≠ []

/-- An attempt from `attempt` on produces a plan without a defect, and the budget is not spent
before it. -/
def Recovers (attempt : ℕ) : Prop :=
  ∃ later, attempt ≤ later ∧ (later ≤ PLAN_GENERATION_ATTEMPTS ∧ Good loads (answers later)) ∧
    ∀ between, attempt ≤ between → between < later → ¬clock.BudgetSpent between

/-- The first plan without a defect from `attempt` on is sent back, and lost. -/
def Loses (attempt : ℕ) : Prop :=
  ∃ later, attempt ≤ later ∧
    (SentBack rules loads entities clock answers later ∧
      ¬Recovers loads clock answers (later + 1)) ∧
    ∀ between, attempt ≤ between → between < later →
      ¬Good loads (answers between) ∧ ¬clock.BudgetSpent between

/-- What happens at some attempt happens at the next one or, if that one passes, after it. -/
theorem exists_from_iff {P Q : ℕ → Prop} (attempt : ℕ) :
    (∃ later, attempt ≤ later ∧ P later ∧
        ∀ between, attempt ≤ between → between < later → Q between) ↔
      P attempt ∨ Q attempt ∧ ∃ later, attempt + 1 ≤ later ∧ P later ∧
        ∀ between, attempt + 1 ≤ between → between < later → Q between := by
  constructor
  · rintro ⟨later, hle, hlater, hbetween⟩
    rcases Nat.eq_or_lt_of_le hle with rfl | hlt
    · exact .inl hlater
    · exact .inr ⟨hbetween attempt le_rfl hlt, later, hlt, hlater,
        fun between hnext => hbetween between (Nat.le_of_succ_le hnext)⟩
  · rintro (hnow | ⟨hpass, later, hle, hlater, hbetween⟩)
    · exact ⟨attempt, le_rfl, hnow, fun between hge hlt => absurd hlt (Nat.not_lt.2 hge)⟩
    · refine ⟨later, Nat.le_of_succ_le hle, hlater, fun between hge hlt => ?_⟩
      rcases Nat.eq_or_lt_of_le hge with rfl | hnext
      · exact hpass
      · exact hbetween between hnext hlt

variable {rules loads entities clock answers} {attempt left : ℕ} {s : PlanningState}

theorem not_recovers_of_lt (h : PLAN_GENERATION_ATTEMPTS < attempt) :
    ¬Recovers loads clock answers attempt := by
  rintro ⟨later, hle, ⟨hlater, -⟩, -⟩
  exact absurd (h.trans_le hle) (Nat.not_lt.2 hlater)

theorem not_loses_of_le (h : PLAN_GENERATION_ATTEMPTS ≤ attempt) :
    ¬Loses rules loads entities clock answers attempt := by
  rintro ⟨later, hle, ⟨⟨hlater, -⟩, -⟩, -⟩
  exact absurd (h.trans hle) (Nat.not_le.2 hlater)

theorem SentBack.good (h : SentBack rules loads entities clock answers attempt) :
    Good loads (answers attempt) := by
  obtain ⟨-, -, -, proposed, hanswer, hdefect, -⟩ := h
  exact ⟨proposed, hanswer, hdefect⟩

end Outcomes

section Attempts

variable {rules : TextRules} {loads : String → Option Json} {entities : Fields}
  {clock : PlanningClock} {answers : ℕ → Except Exc AgentPlan} {attempt : ℕ} {s : PlanningState}

/-- How the variables change in an attempt that produced no plan without a defect, if the loop
goes on; after the last attempt there is a plan, with a defect. -/
structure Passes (loads : String → Option Json) (clock : PlanningClock) (attempt : ℕ)
    (s next : PlanningState) : Prop where
  budget : ¬clock.BudgetSpent attempt
  used : next.qualityReviewUsed = s.qualityReviewUsed
  calls : next.calls = s.calls
  reviews : next.reviews = s.reviews
  last : PLAN_GENERATION_ATTEMPTS ≤ attempt →
    ∃ plan, next.plan = some plan ∧ planDefect loads plan ≠ none

/-- The four ways in which an attempt settles. -/
inductive Settles (rules : TextRules) (loads : String → Option Json) (entities : Fields)
    (clock : PlanningClock) (answers : ℕ → Except Exc AgentPlan) (attempt : ℕ)
    (s : PlanningState) : Except Exc AgentPlan ⊕ PlanningState → Prop
  | stops {result : Except Exc AgentPlan} (hbad : ¬Good loads (answers attempt))
      (hend : PLAN_GENERATION_ATTEMPTS ≤ attempt ∨ clock.BudgetSpent attempt)
      (hlost : ¬Kept loads (result.map some)) :
      Settles rules loads entities clock answers attempt s (.inl result)
  | passes {next : PlanningState} (hbad : ¬Good loads (answers attempt))
      (hpasses : Passes loads clock attempt s next) :
      Settles rules loads entities clock answers attempt s (.inr next)
  | keeps {plan : AgentPlan} (hgood : Good loads (answers attempt))
      (hdefect : planDefect loads plan = none)
      (hkept : s.qualityReviewUsed = false → ¬SentBack rules loads entities clock answers attempt) :
      Settles rules loads entities clock answers attempt s (.inl (.ok plan))
  | sendsBack {next : PlanningState} (hunused : s.qualityReviewUsed = false)
      (hsent : SentBack rules loads entities clock answers attempt)
      (hused : next.qualityReviewUsed = true) (hcalls : next.calls = s.calls)
      (hreviews : next.reviews = s.reviews + 1) :
      Settles rules loads entities clock answers attempt s (.inr next)

/-- A plan without a defect is sent back in the one review, or returned. -/
theorem settles_of_good {proposed : AgentPlan} (hanswer : answers attempt = .ok proposed)
    (hdefect : planDefect loads (materializeTypedActionInputs loads proposed) = none) :
    Settles rules loads entities clock answers attempt s
      (settleAttempt rules loads entities clock answers attempt s) := by
  have hgood : Good loads (answers attempt) := ⟨proposed, hanswer, hdefect⟩
  unfold settleAttempt
  rw [hanswer]
  dsimp only
  rw [hdefect]
  dsimp only
  split
  next hnil =>
    refine .keeps hgood hdefect ?_
    rintro hunused ⟨hattempt, hbudget, hreviewable, proposed', hanswer', -, hissues⟩
    cases hanswer.symm.trans hanswer'
    unfold reviewIssues at hnil
    rw [if_pos ⟨hunused, hattempt, hbudget, hreviewable⟩] at hnil
    exact hissues hnil
  next hissues =>
    unfold reviewIssues at hissues
    split at hissues
    next hreview =>
      obtain ⟨hunused, hattempt, hbudget, hreviewable⟩ := hreview
      exact .sendsBack hunused
        ⟨hattempt, hbudget, hreviewable, proposed, hanswer, hdefect, hissues⟩ rfl rfl rfl
    next => exact absurd rfl hissues

/-- A plan with a defect is not kept; while the budget lasts it is replaced. -/
theorem settles_of_defect {proposed : AgentPlan} {defect : String}
    (hanswer : answers attempt = .ok proposed)
    (hdefect : planDefect loads (materializeTypedActionInputs loads proposed) = some defect) :
    Settles rules loads entities clock answers attempt s
      (settleAttempt rules loads entities clock answers attempt s) := by
  have hbad : ¬Good loads (answers attempt) := by
    rintro ⟨proposed', hanswer', hnone⟩
    cases hanswer.symm.trans hanswer'
    cases hdefect.symm.trans hnone
  unfold settleAttempt
  rw [hanswer]
  dsimp only
  rw [hdefect]
  dsimp only
  split
  next hspent =>
    refine .stops hbad (.inr hspent) ?_
    rintro ⟨plan, hplan, hnone⟩
    cases hplan
    cases hdefect.symm.trans hnone
  next hbudget =>
    exact .passes hbad ⟨hbudget, rfl, rfl, rfl, fun _ =>
      ⟨_, rfl, fun hnone => nomatch hdefect.symm.trans hnone⟩⟩

/-- An exception is raised in the last attempt and when the budget is spent. -/
theorem settles_of_error {x : Exc} (hanswer : answers attempt = .error x) :
    Settles rules loads entities clock answers attempt s
      (settleAttempt rules loads entities clock answers attempt s) := by
  have hbad : ¬Good loads (answers attempt) := by
    rintro ⟨proposed, hok, -⟩
    cases hanswer.symm.trans hok
  unfold settleAttempt
  rw [hanswer]
  dsimp only
  split
  next hend =>
    refine .stops hbad hend ?_
    rintro ⟨plan, hplan, -⟩
    cases hplan
  next hend =>
    exact .passes hbad ⟨fun hspent => hend (.inr hspent), rfl, rfl, rfl,
      fun hlast => absurd (.inl hlast) hend⟩

theorem settles_settleAttempt (rules : TextRules) (loads : String → Option Json)
    (entities : Fields) (clock : PlanningClock) (answers : ℕ → Except Exc AgentPlan)
    (attempt : ℕ) (s : PlanningState) :
    Settles rules loads entities clock answers attempt s
      (settleAttempt rules loads entities clock answers attempt s) := by
  cases hanswer : answers attempt with
  | error x => exact settles_of_error hanswer
  | ok proposed =>
      cases hdefect : planDefect loads (materializeTypedActionInputs loads proposed) with
      | none => exact settles_of_good hanswer hdefect
      | some defect => exact settles_of_defect hanswer hdefect

end Attempts

section Runs

variable {rules : TextRules} {loads : String → Option Json} {entities : Fields}
  {clock : PlanningClock} {answers : ℕ → Except Exc AgentPlan} {attempt left : ℕ}
  {s : PlanningState}

theorem recovers_iff :
    Recovers loads clock answers attempt ↔
      attempt ≤ PLAN_GENERATION_ATTEMPTS ∧ Good loads (answers attempt) ∨
        ¬clock.BudgetSpent attempt ∧ Recovers loads clock answers (attempt + 1) :=
  exists_from_iff attempt

theorem loses_iff :
    Loses rules loads entities clock answers attempt ↔
      SentBack rules loads entities clock answers attempt ∧
          ¬Recovers loads clock answers (attempt + 1) ∨
        (¬Good loads (answers attempt) ∧ ¬clock.BudgetSpent attempt) ∧
          Loses rules loads entities clock answers (attempt + 1) :=
  exists_from_iff attempt

/-- The calls that were made stay noted. -/
theorem mem_calls_generateFrom {call : GenerationCall} (h : call ∈ s.calls) :
    call ∈ (generateFrom rules loads entities clock answers attempt left s).calls := by
  induction left generalizing attempt s with
  | zero => exact h
  | succ left ih =>
      have hcalled : call ∈ (called s (answers attempt)).calls := List.mem_append_left _ h
      have hsettles := settles_settleAttempt rules loads entities clock answers attempt
        (called s (answers attempt))
      unfold generateFrom
      dsimp only
      generalize settleAttempt rules loads entities clock answers attempt
        (called s (answers attempt)) = settled at hsettles ⊢
      cases hsettles with
      | stops => exact hcalled
      | passes _ hpasses => exact ih (hpasses.calls ▸ hcalled)
      | keeps => exact hcalled
      | sendsBack _ _ _ hcalls _ => exact ih (hcalls ▸ hcalled)

/-- The attempts bound the calls, and the review happens once. -/
theorem generateFrom_bounds :
    (generateFrom rules loads entities clock answers attempt left s).calls.length ≤
        s.calls.length + left ∧
      (generateFrom rules loads entities clock answers attempt left s).reviews ≤
        s.reviews + (if s.qualityReviewUsed then 0 else 1) := by
  induction left generalizing attempt s with
  | zero => exact ⟨le_rfl, Nat.le_add_right _ _⟩
  | succ left ih =>
      have hlength : (called s (answers attempt)).calls.length = s.calls.length + 1 :=
        List.length_append
      have hsettles := settles_settleAttempt rules loads entities clock answers attempt
        (called s (answers attempt))
      unfold generateFrom
      dsimp only
      generalize settleAttempt rules loads entities clock answers attempt
        (called s (answers attempt)) = settled at hsettles ⊢
      cases hsettles with
      | stops =>
          refine ⟨?_, Nat.le_add_right _ _⟩
          rw [hlength]
          omega
      | @passes next _ hpasses =>
          have hnext := @ih (attempt + 1) next
          rw [hpasses.calls, hpasses.reviews, hpasses.used, hlength] at hnext
          exact ⟨hnext.1.trans (by omega), hnext.2⟩
      | keeps =>
          refine ⟨?_, Nat.le_add_right _ _⟩
          rw [hlength]
          omega
      | @sendsBack next hunused hsent hused hcalls hreviews =>
          have hnext := @ih (attempt + 1) next
          rw [hcalls, hreviews, hused, hlength] at hnext
          have hfresh : s.qualityReviewUsed = false := hunused
          rw [hfresh]
          exact ⟨hnext.1.trans (by omega), hnext.2⟩

/-- After the review, a plan is kept if and only if the attempts recover one. -/
theorem kept_generateFrom_iff (hused : s.qualityReviewUsed = true)
    (hplan : left = 0 → ¬Kept loads (.ok s.plan))
    (hleft : attempt + left = PLAN_GENERATION_ATTEMPTS + 1) :
    Kept loads (generateFrom rules loads entities clock answers attempt left s).result ↔
      Recovers loads clock answers attempt := by
  induction left generalizing attempt s with
  | zero => exact iff_of_false (hplan rfl) (not_recovers_of_lt (by omega))
  | succ left ih =>
      have hsettles := settles_settleAttempt rules loads entities clock answers attempt
        (called s (answers attempt))
      unfold generateFrom
      dsimp only
      generalize settleAttempt rules loads entities clock answers attempt
        (called s (answers attempt)) = settled at hsettles ⊢
      rw [recovers_iff]
      cases hsettles with
      | stops hbad hend hlost =>
          refine iff_of_false hlost ?_
          rintro (⟨-, hgood⟩ | ⟨hbudget, hrecovers⟩)
          · exact hbad hgood
          · exact not_recovers_of_lt (Nat.lt_succ_of_le (hend.resolve_right hbudget)) hrecovers
      | passes hbad hpasses =>
          rw [ih (hpasses.used.trans hused) (fun hzero => ?_) (by omega)]
          · exact (or_iff_right fun h => hbad h.2).trans (and_iff_right hpasses.budget) |>.symm
          · obtain ⟨plan, hsome, hdefect⟩ := hpasses.last (by omega)
            rintro ⟨kept, hkept, hnone⟩
            rw [hsome] at hkept
            cases hkept
            exact hdefect hnone
      | keeps hgood hdefect => exact iff_of_true ⟨_, rfl, hdefect⟩ (.inl ⟨by omega, hgood⟩)
      | sendsBack hunused => cases hused.symm.trans hunused

/-- Before the review, a plan without a defect is kept if and only if the attempts do not lose
it. -/
theorem keeps_generateFrom_iff (hunused : s.qualityReviewUsed = false)
    (hcalls : ∀ call ∈ s.calls, ¬Good loads call.answer)
    (hleft : attempt + left = PLAN_GENERATION_ATTEMPTS + 1) :
    ((∃ call ∈ (generateFrom rules loads entities clock answers attempt left s).calls,
        Good loads call.answer) →
      Kept loads (generateFrom rules loads entities clock answers attempt left s).result) ↔
      ¬Loses rules loads entities clock answers attempt := by
  induction left generalizing attempt s with
  | zero =>
      refine iff_of_true ?_ (not_loses_of_le (by omega))
      rintro ⟨call, hcall, hgood⟩
      exact absurd hgood (hcalls call hcall)
  | succ left ih =>
      have hsettles := settles_settleAttempt rules loads entities clock answers attempt
        (called s (answers attempt))
      have hnoted : ¬Good loads (answers attempt) →
          ∀ call ∈ (called s (answers attempt)).calls, ¬Good loads call.answer := by
        intro hbad call hcall
        rcases List.mem_append.1 hcall with hbefore | hnow
        · exact hcalls call hbefore
        · rw [List.mem_singleton.1 hnow]
          exact hbad
      unfold generateFrom
      dsimp only
      generalize settleAttempt rules loads entities clock answers attempt
        (called s (answers attempt)) = settled at hsettles ⊢
      rw [loses_iff]
      cases hsettles with
      | stops hbad hend hlost =>
          refine iff_of_true ?_ ?_
          · rintro ⟨call, hcall, hgood⟩
            exact absurd hgood (hnoted hbad call hcall)
          · rintro (⟨hsent, -⟩ | ⟨⟨-, hbudget⟩, hloses⟩)
            · exact hbad hsent.good
            · exact not_loses_of_le (Nat.le_succ_of_le (hend.resolve_right hbudget)) hloses
      | passes hbad hpasses =>
          rw [ih (hpasses.used.trans hunused) (hpasses.calls ▸ hnoted hbad) (by omega)]
          refine not_congr ?_
          exact ((or_iff_right fun h => hbad h.1.good).trans
            (and_iff_right ⟨hbad, hpasses.budget⟩)).symm
      | keeps hgood hdefect hkept =>
          refine iff_of_true (fun _ => ⟨_, rfl, hdefect⟩) ?_
          rintro (⟨hsent, -⟩ | ⟨⟨hbad, -⟩, -⟩)
          · exact hkept hunused hsent
          · exact hbad hgood
      | @sendsBack next _ hsent hused hnext _ =>
          have hbefore : attempt < PLAN_GENERATION_ATTEMPTS := hsent.1
          have hmade : (⟨s.retryFeedback, answers attempt⟩ : GenerationCall) ∈ next.calls := by
            rw [hnext]
            exact List.mem_append_right _ List.mem_cons_self
          have hexists : ∃ call ∈ (generateFrom rules loads entities clock answers (attempt + 1)
              left next).calls, Good loads call.answer :=
            ⟨_, mem_calls_generateFrom hmade, hsent.good⟩
          rw [imp_iff_right hexists, kept_generateFrom_iff hused (by omega) (by omega)]
          constructor
          · rintro hrecovers (⟨-, hlost⟩ | ⟨⟨hbad, -⟩, -⟩)
            · exact hlost hrecovers
            · exact hbad hsent.good
          · intro hkeeps
            by_contra hlost
            exact hkeeps (.inl ⟨hsent, hlost⟩)

/-- How the loop looks to the planner: each attempt with its answer and its two checks of the
time. -/
def attemptOf (clock : PlanningClock) (answers : ℕ → Except Exc AgentPlan) (attempt : ℕ) :
    PlanningAttempt :=
  { answer := answers attempt
    budgetSpent := decide (clock.BudgetSpent attempt)
    reviewable := decide (clock.Reviewable attempt) }

/-- The two reviews that the loop makes. -/
def reviewOf (rules : TextRules) (loads : String → Option Json) (entities : Fields) : PlanReview :=
  { defect := planDefect loads
    qualityIssues := fun plan => planQualityIssues rules loads plan entities }

theorem generateFrom_result (hleft : attempt + left = PLAN_GENERATION_ATTEMPTS) :
    (generateFrom rules loads entities clock answers attempt (left + 1) s).result =
      ((acceptedFrom loads (reviewOf rules loads entities) (attemptOf clock answers) left
        s.qualityReviewUsed).map (materializeTypedActionInputs loads)).map some := by
  induction left generalizing attempt s with
  | zero =>
      obtain rfl : attempt = PLAN_GENERATION_ATTEMPTS := hleft
      unfold generateFrom settleAttempt acceptedFrom
      cases hanswer : answers PLAN_GENERATION_ATTEMPTS with
      | error x => simp [attemptOf, hanswer, Except.map]
      | ok proposed =>
          cases hdefect : planDefect loads (materializeTypedActionInputs loads proposed) with
          | none => simp [attemptOf, hanswer, hdefect, reviewIssues, Except.map]
          | some defect =>
              by_cases hspent : clock.BudgetSpent PLAN_GENERATION_ATTEMPTS <;>
                simp [attemptOf, hanswer, hdefect, hspent, generateFrom, Except.map]
  | succ left ih =>
      have hattempt : PLAN_GENERATION_ATTEMPTS - (left + 1) = attempt := by omega
      have hbefore : ¬PLAN_GENERATION_ATTEMPTS ≤ attempt := by omega
      have hnext : attempt + 1 + left = PLAN_GENERATION_ATTEMPTS := by omega
      unfold generateFrom settleAttempt acceptedFrom
      rw [hattempt]
      cases hanswer : answers attempt with
      | error x =>
          by_cases hspent : clock.BudgetSpent attempt
          · simp [attemptOf, hanswer, hspent, Except.map]
          · simp only [hbefore, hspent, or_self, if_false, attemptOf, hanswer, decide_false]
            exact ih hnext
      | ok proposed =>
          cases hdefect : planDefect loads (materializeTypedActionInputs loads proposed) with
          | some defect =>
              by_cases hspent : clock.BudgetSpent attempt
              · simp [attemptOf, reviewOf, hanswer, hdefect, hspent, Except.map]
              · simp only [attemptOf, reviewOf, hanswer, hdefect, hspent, if_false, decide_false,
                  Option.isSome_some, if_true]
                exact ih hnext
          | none =>
              unfold reviewIssues
              have hlt : attempt < PLAN_GENERATION_ATTEMPTS := Nat.not_le.1 hbefore
              by_cases hreview : s.qualityReviewUsed = false ∧ ¬clock.BudgetSpent attempt ∧
                clock.Reviewable attempt
              · obtain ⟨hunused, hbudget, hreviewable⟩ := hreview
                cases hissues : planQualityIssues rules loads
                  (materializeTypedActionInputs loads proposed) entities with
                | nil => simp [attemptOf, reviewOf, hanswer, hdefect, hissues, Except.map]
                | cons issue issues =>
                    simp only [attemptOf, reviewOf, hdefect, hanswer, hissues, called, hunused,
                      hbudget, hlt, hreviewable, not_false_eq_true, and_self, if_true,
                      reduceCtorEq, if_false, decide_true, decide_false, Bool.not_false,
                      Bool.and_self, List.isEmpty_cons, Option.isSome_none, Bool.false_eq_true]
                    exact ih hnext
              · have hskipped : ¬(s.qualityReviewUsed = false ∧ attempt < PLAN_GENERATION_ATTEMPTS ∧
                    ¬clock.BudgetSpent attempt ∧ clock.Reviewable attempt) :=
                  fun h => hreview ⟨h.1, h.2.2⟩
                have hflags : (!s.qualityReviewUsed && !decide (clock.BudgetSpent attempt) &&
                    decide (clock.Reviewable attempt)) = false := by
                  simpa [and_assoc] using hreview
                simp only [attemptOf, reviewOf, hdefect, hanswer, called, hskipped, hflags,
                  if_false, if_true, Option.isSome_none, Bool.false_eq_true, Bool.false_and]
                rfl

/-- The loop settles on the plan that the planner takes over. -/
theorem generation_result :
    (generation rules loads entities clock answers).result =
      (generatePlan loads (reviewOf rules loads entities) (attemptOf clock answers)).map some :=
  generateFrom_result rfl

end Runs

/-- A run keeps what it was given: at most three calls and one review, a plan unless it raises,
and a plan without a defect if some call produced one. -/
structure KeepsPlans (loads : String → Option Json) (run : PlanningRun) : Prop where
  calls : run.calls.length ≤ PLAN_GENERATION_ATTEMPTS
  reviews : run.reviews ≤ 1
  returns : run.result ≠ .ok none
  keeps : (∃ call ∈ run.calls, Good loads call.answer) → Kept loads run.result

theorem keepsPlans_iff_not_loses (rules : TextRules) (loads : String → Option Json)
    (entities : Fields) (clock : PlanningClock) (answers : ℕ → Except Exc AgentPlan) :
    KeepsPlans loads (generation rules loads entities clock answers) ↔
      ¬Loses rules loads entities clock answers 1 := by
  have hkeeps := @keeps_generateFrom_iff rules loads entities clock answers 1
    PLAN_GENERATION_ATTEMPTS {} rfl (List.forall_mem_nil _) (Nat.add_comm _ _)
  obtain ⟨hcalls, hreviews⟩ := @generateFrom_bounds rules loads entities clock answers 1
    PLAN_GENERATION_ATTEMPTS {}
  have hreturns : (generation rules loads entities clock answers).result ≠ .ok none := by
    rw [generation_result]
    cases generatePlan loads (reviewOf rules loads entities) (attemptOf clock answers) <;>
      rintro ⟨⟩
  rw [← hkeeps]
  constructor
  · exact fun h => h.keeps
  · exact fun h => ⟨hcalls.trans (by decide), hreviews, hreturns, h⟩

/-- Generation keeps every plan without a defect if and only if the first one, where the critic
sends it back, is followed by another one before the attempts or the budget run out. -/
theorem generation_keeps_iff (rules : TextRules) (loads : String → Option Json)
    (entities : Fields) (clock : PlanningClock) (answers : ℕ → Except Exc AgentPlan) :
    KeepsPlans loads (generation rules loads entities clock answers) ↔
      ∀ attempt, 1 ≤ attempt →
        (∀ earlier, 1 ≤ earlier → earlier < attempt → ¬Good loads (answers earlier)) →
        SentBack rules loads entities clock answers attempt →
          Recovers loads clock answers (attempt + 1) := by
  rw [keepsPlans_iff_not_loses]
  constructor
  · intro hkeeps attempt hattempt hfirst hsent
    by_contra hlost
    exact hkeeps ⟨attempt, hattempt, ⟨hsent, hlost⟩, fun earlier hearlier hlt =>
      ⟨hfirst earlier hearlier hlt,
        PlanningClock.not_budgetSpent_of_le (Nat.le_of_lt hlt) hsent.2.1⟩⟩
  · rintro hrecovers ⟨attempt, hattempt, ⟨hsent, hlost⟩, hfirst⟩
    exact hlost (hrecovers attempt hattempt
      (fun earlier hearlier hlt => (hfirst earlier hearlier hlt).1) hsent)

section Sample

/-- A clock that stands still. -/
def stoppedClock : PlanningClock where
  startedAt := 0
  attemptStartedAt _ := 0
  generatedAt _ := 0
  checkedAt _ := 0
  startedAt_le := by decide
  attemptStartedAt_le _ := by decide
  generatedAt_le _ := by decide
  checkedAt_le _ := by decide

theorem stoppedClock_budget (attempt : ℕ) : ¬stoppedClock.BudgetSpent attempt := by
  unfold PlanningClock.BudgetSpent PLANNING_TIME_BUDGET_SECONDS stoppedClock
  grind

theorem stoppedClock_reviewable (attempt : ℕ) : stoppedClock.Reviewable attempt := by
  unfold PlanningClock.Reviewable CRITIC_SKIP_GENERATION_SECONDS stoppedClock
  grind

/-- Entities that list one item. -/
def oneItem : Fields :=
  [("backlog_work_items", .arr [.obj [("itemId", .str "item"), ("status", .str "todo")]])]

/-- A plan for an item of a sprint, and then timeouts. -/
def planThenTimeouts (itemId : String) (attempt : ℕ) : Except Exc AgentPlan :=
  if attempt = 1 then .ok (mapPlan itemId) else .error (.external "ModelError" "timeout")

theorem mapPlan_good (itemId : String) :
    planDefect (fun _ => none) (materializeTypedActionInputs (fun _ => none) (mapPlan itemId)) =
      none := rfl

/-- A plan that the critic sends back is lost when the next two attempts fail. -/
theorem timeouts_lose_plan :
    ¬∀ (rules : TextRules) (loads : String → Option Json) (entities : Fields)
      (clock : PlanningClock) (answers : ℕ → Except Exc AgentPlan),
      KeepsPlans loads (generation rules loads entities clock answers) := by
  intro hkeeps
  refine (keepsPlans_iff_not_loses ⟨id, Char.isDigit⟩ (fun _ => none) oneItem stoppedClock
    (planThenTimeouts "other")).1 (hkeeps _ _ _ _ _) ⟨1, le_rfl, ⟨?_, ?_⟩, ?_⟩
  · exact ⟨by decide, stoppedClock_budget 1, stoppedClock_reviewable 1, mapPlan "other", rfl,
      mapPlan_good "other", List.cons_ne_nil _ _⟩
  · rintro ⟨later, hlater, ⟨-, proposed, hanswer, -⟩, -⟩
    unfold planThenTimeouts at hanswer
    rw [if_neg (by omega)] at hanswer
    cases hanswer
  · intro between hge hlt
    exact absurd hlt (Nat.not_lt.2 hge)

end Sample

end RuntimePlanningAgent

end PrismAgent
