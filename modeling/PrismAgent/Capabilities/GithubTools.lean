import PrismAgent.Capabilities.SprintTools

/-!
# The pull request review tool

`capabilities/tools/github_tools.py`: the review is posted for the pull request of the input
or of the hydrated diff, and answered locally when there is no client or no pull number.
-/

namespace PrismAgent

open Effect
open Effect.Program (perform tryCatch)

/-- The call that the tool makes of the client. -/
inductive ReviewCall
  | createPullRequestReview (projectId : String) (pullNumber : Json) (payload : Fields)

abbrev ReviewCall.Answer : ReviewCall → Type
  | createPullRequestReview _ _ _ => Fields

abbrev ReviewProgram (α : Type) : Type := Program ReviewCall ReviewCall.Answer Exc α

namespace SubmitPullRequestReviewTool

def REVIEW_EVENTS : List String := ["COMMENT", "APPROVE", "REQUEST_CHANGES"]

/-- `str.upper` of one character, as far as it makes capital letters of the names of the
events: a long s and its ligatures with t become `S` and `ST`. -/
def upperChar (c : Char) : List Char :=
  match c with
  | 'ſ' => ['S']
  | 'ﬅ' => ['S', 'T']
  | 'ﬆ' => ['S', 'T']
  | c => [c.toUpper]

/-- The event of the input, `COMMENT` unless it is one of the events. -/
def reviewEvent (input : Fields) : String :=
  let event := String.ofList ((textField input "event" "COMMENT").toList.flatMap upperChar)
  if event ∈ REVIEW_EVENTS then event else "COMMENT"

/-- The line that a comment is about: an integer from one on, as which `True` counts. -/
def commentLine (item : Fields) : Option Json :=
  match item.lookup "line" with
  | some (.int line) => if line < 1 then none else some (.int line)
  | some (.bool true) => some (.bool true)
  | _ => none

/-- The side of a comment; a list or an object cannot be looked up in the set of sides. -/
def commentSide (item : Fields) : Except Exc Fields :=
  match item.lookup "side" with
  | some (.str side) => .ok (if side = "LEFT" ∨ side = "RIGHT" then [("side", .str side)] else [])
  | some (.arr _) => .error (.typeError "unhashable type: 'list'")
  | some (.obj _) => .error (.typeError "unhashable type: 'dict'")
  | _ => .ok []

/-- A comment with a path, a line and a body; any other is left out. -/
def normalizeComment (item : Json) : Except Exc (Option Json) :=
  match item with
  | .obj fields =>
      match truthyField fields "path", commentLine fields, truthyField fields "body" with
      | some path, some line, some body =>
          match commentSide fields with
          | .ok side =>
              .ok (some (.obj ([("path", .str path.toStr), ("line", line),
                ("body", .str body.toStr)] ++ side)))
          | .error exc => .error exc
      | _, _, _ => .ok none
  | _ => .ok none

/-- The comments of a list, up to the first that raises. -/
def normalizeItems : List Json → Except Exc (List Json)
  | [] => .ok []
  | item :: items => do
      let comment ← normalizeComment item
      let comments ← normalizeItems items
      return comment.toList ++ comments

def normalizeComments (raw : Option Json) : Except Exc (List Json) :=
  match raw with
  | some (.arr items) => normalizeItems items
  | _ => .ok []

/-- The repository that a payload names at its top level. -/
def payloadRepository (payload : Fields) : Option Json :=
  (truthyField payload "repositoryFullName").or (truthyField payload "repository_full_name")

/-- `_repository_full_name`: of the input, of the diff or of the source event. -/
def repositoryFullName (input : Fields) (context : AgentContext) (diff : Fields) : String :=
  match ((truthyField input "repositoryFullName").or (truthyField diff "repositoryFullName")).or
      (payloadRepository context.sourceEvent.event.payload) with
  | some repository => repository.toStr
  | none => ""

/-- The hydrated diff, empty where it is not an object. -/
def contextDiff (context : AgentContext) : Fields :=
  match context.entities.lookup "pull_request_diff" with
  | some (.obj diff) => diff
  | _ => []

/-- `action.input.get("pullNumber") or diff.get("pullNumber")`. -/
def pullNumber (input diff : Fields) : Json :=
  (truthyField input "pullNumber").getD ((diff.lookup "pullNumber").getD .null)

def reviewPayload (action : PlannedAction) (headSha repository : String)
    (comments : List Json) : Fields :=
  [("headSha", .str headSha), ("event", .str (reviewEvent action.input)),
    ("summary", .str (textField action.input "summary" action.instruction))] ++
    (if repository = "" then [] else [("repositoryFullName", .str repository)]) ++
    (if comments.isEmpty then [] else [("comments", .arr comments)])

/-- The result when the API refuses the review; other errors are raised again. -/
def refused (resultId : String) (action : PlannedAction) (headSha : String) :
    Exc → ReviewProgram ToolResult
  | .external "PrismApiConflictError" message =>
      pure (failed message
        [("reason", .str "stale_pull_request_head"), ("headSha", .str headSha)])
  | .external "PrismApiBadRequestError" message =>
      pure (failed message [("reason", .str "invalid_review_request")])
  | .external "PrismApiUnprocessableError" message =>
      pure (failed message [("reason", .str "invalid_review_comment_anchor")])
  | exc => .raise exc
where
  /-- A result without success. -/
  failed (message : String) (output : Fields) : ToolResult :=
    { resultId := resultId
      planId := action.planId
      actionId := action.actionId
      toolName := "submit_pull_request_review"
      success := false
      output := output
      error := some message }

def succeeded (resultId : String) (action : PlannedAction) (output : Fields) : ToolResult :=
  { resultId := resultId
    planId := action.planId
    actionId := action.actionId
    toolName := "submit_pull_request_review"
    success := true
    output := output }

/-- Post the review. -/
def submit (resultId : String) (action : PlannedAction) (projectId : String) (pullNumber : Json)
    (headSha : String) (payload : Fields) : ReviewProgram ToolResult :=
  tryCatch
    ((perform (ReviewCall.createPullRequestReview projectId pullNumber payload)).bind fun output =>
      pure (succeeded resultId action output))
    (refused resultId action headSha)

def execute (configured : Bool) (resultId : String) (action : PlannedAction)
    (context : AgentContext) : ReviewProgram ToolResult :=
  let diff := contextDiff context
  let projectId := textField action.input "projectId" (context.projectId.getD "")
  let number := pullNumber action.input diff
  let headSha := textField action.input "headSha" (textField diff "headSha" "")
  match normalizeComments (action.input.lookup "comments") with
  | .error exc => .raise exc
  | .ok comments =>
      let payload := withRequester
        (reviewPayload action headSha (repositoryFullName action.input context diff) comments)
        (requestedByUserId action.input context)
      if configured && !number.isNull then
        submit resultId action projectId number headSha payload
      else
        pure (succeeded resultId action
          [("reviewId", .str ("local-" ++ action.actionId)), ("pullNumber", number),
            ("event", .str (reviewEvent action.input)), ("comments", .arr comments)])

section Execute

variable {resultId : String} {action : PlannedAction} {context : AgentContext}

/-- The review that is posted first of all: its number, head and repository. -/
def Posts (p : ReviewProgram ToolResult) (number : Json) (headSha repository : String) : Prop :=
  ∃ projectId payload k,
    p = .call (ReviewCall.createPullRequestReview projectId number payload) k ∧
      payload.lookup "headSha" = some (.str headSha) ∧
      payload.lookup "repositoryFullName" = some (.str repository)

/-- Success is reported although nothing is posted. -/
def FakesSuccess (p : ReviewProgram ToolResult) : Prop :=
  ∃ result, p = .pure result ∧ result.success = true

theorem lookup_headSha {headSha repository : String} {comments : List Json} :
    (reviewPayload action headSha repository comments).lookup "headSha" =
      some (.str headSha) := rfl

theorem lookup_repositoryFullName {headSha repository : String} {comments : List Json} :
    (reviewPayload action headSha repository comments).lookup "repositoryFullName" =
      if repository = "" then none else some (.str repository) := by
  unfold reviewPayload
  split
  · split
    · rfl
    · rfl
  · rfl

theorem submit_call (projectId : String) (number : Json) (headSha : String) (payload : Fields) :
    ∃ k, submit resultId action projectId number headSha payload =
      .call (ReviewCall.createPullRequestReview projectId number payload) k :=
  ⟨_, rfl⟩

theorem posts_submit_iff {projectId : String} {number number' : Json}
    {headSha headSha' repository : String} {payload : Fields} :
    Posts (submit resultId action projectId number headSha payload) number' headSha' repository ↔
      number' = number ∧ payload.lookup "headSha" = some (.str headSha') ∧
        payload.lookup "repositoryFullName" = some (.str repository) := by
  obtain ⟨k, hk⟩ := @submit_call resultId action projectId number headSha payload
  rw [hk]
  constructor
  · rintro ⟨projectId', payload', k', hcall, hsha, hrepository⟩
    cases hcall
    exact ⟨rfl, hsha, hrepository⟩
  · rintro ⟨rfl, hsha, hrepository⟩
    exact ⟨projectId, payload, k, rfl, hsha, hrepository⟩

/-- With an empty input the number, the head and the repository come from the diff and from the
source event. -/
theorem posts_iff (hinput : action.input = []) {number : Json} {headSha repository : String} :
    Posts (execute true resultId action context) number headSha repository ↔
      number = pullNumber [] (contextDiff context) ∧ number.isNull = false ∧
        headSha = textField (contextDiff context) "headSha" "" ∧
        repository = repositoryFullName [] context (contextDiff context) ∧ repository ≠ "" := by
  unfold execute
  rw [hinput]
  change Posts (if !(pullNumber [] (contextDiff context)).isNull then submit _ _ _ _ _ _
    else _) _ _ _ ↔ _
  cases hnumber : (pullNumber [] (contextDiff context)).isNull with
  | true =>
      refine iff_of_false ?_ ?_
      · rintro ⟨projectId, payload, k, hcall, -⟩
        cases hcall
      · rintro ⟨rfl, hnot, -⟩
        rw [hnumber] at hnot
        cases hnot
  | false =>
      refine posts_submit_iff.trans ?_
      rw [lookup_withRequester (by decide), lookup_withRequester (by decide),
        lookup_headSha, lookup_repositoryFullName]
      constructor
      · rintro ⟨rfl, hsha, hrepo⟩
        split at hrepo
        next => cases hrepo
        next hne =>
          cases hsha
          cases hrepo
          exact ⟨rfl, hnumber, rfl, rfl, hne⟩
      · rintro ⟨rfl, -, rfl, rfl, hne⟩
        rw [if_neg hne]
        exact ⟨rfl, rfl, rfl⟩

theorem fakesSuccess_iff (hinput : action.input = []) :
    FakesSuccess (execute true resultId action context) ↔
      (pullNumber [] (contextDiff context)).isNull = true := by
  unfold execute
  rw [hinput]
  change FakesSuccess (if !(pullNumber [] (contextDiff context)).isNull then _ else _) ↔ _
  cases hnumber : (pullNumber [] (contextDiff context)).isNull with
  | true => exact iff_of_true ⟨_, rfl, rfl⟩ rfl
  | false =>
      refine iff_of_false ?_ Bool.false_ne_true
      rintro ⟨result, hpure, -⟩
      cases hpure

end Execute

end SubmitPullRequestReviewTool

end PrismAgent
