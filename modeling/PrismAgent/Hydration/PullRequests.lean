import PrismAgent.Capabilities.GithubTools
import PrismAgent.Hydration.Stability

/-!
# Reviews of hydrated pull requests

`ContextProvider._resolve_diff_pointer`, and what the review tool can read of the diff that
each route of the hydration leaves: the explicit entity, the dereferenced blob, the embedded
pull request and the answer of the API. The routes accept more spellings than the tool reads.
-/

namespace PrismAgent

open SubmitPullRequestReviewTool (FakesSuccess Posts contextDiff execute fakesSuccess_iff
  payloadRepository posts_iff pullNumber repositoryFullName)

namespace ContextProvider

/-- The store of the diff blobs: the object that it fetches under a name and a version. -/
abbrev DiffPayloadStore := Json → Json → Except Exc Fields

/-- The payload with the pull request of a blob, the repository folded into the diff. -/
def mergedPayload (payload blob pullRequest : Fields) : Fields :=
  let diff :=
    match (truthyField blob "repositoryFullName").or
        (SubmitPullRequestReviewTool.payloadRepository payload) with
    | some repository =>
        if (truthyField pullRequest "repositoryFullName").isSome then pullRequest
        else Dict.insert pullRequest "repositoryFullName" repository
    | none => pullRequest
  Dict.insert (Dict.insert payload "pull_request_diff" (.obj diff)) "pullRequest"
    (.obj pullRequest)

/-- `_resolve_diff_pointer`: the event with the pull request of the blob that it points to. -/
def resolveDiffPointer (diffPayloadStore : Option DiffPayloadStore) (event : RuntimeEvent)
    (requiredContext : List String) : RuntimeEvent :=
  let payload := event.payload
  let isMissing := fun key => ((payload.lookup key).getD .null).isNull
  match diffPayloadStore,
      (truthyField payload "diffObjectName").or (truthyField payload "diff_object_name") with
  | some store, some objectName =>
      if "pull_request_diff" ∈ requiredContext ∧ isMissing "pull_request_diff" = true ∧
          isMissing "pullRequest" = true then
        match store objectName ((truthyField payload "diffObjectVersionId").getD
            ((payload.lookup "diff_object_version_id").getD .null)) with
        | .error _ => event
        | .ok blob =>
            match (truthyField blob "pullRequest").or (blob.lookup "pull_request") with
            | some (.obj pullRequest) =>
                { event with payload := mergedPayload payload blob pullRequest }
            | _ => event
      else event
  | _, _ => event

end ContextProvider

section Found

/-- Where the hydration looks: the diff, and in the payload of the event, as it is and with the
blob that it points to, the explicit entity, the embedded pull request and the top level. -/
def places (source hydrated : Fields) (diff : Json) : List Json :=
  diff :: [hydrated, source].flatMap fun payload =>
    [payloadContextValue payload "pull_request_diff", embeddedPullRequestDiff payload,
      .obj payload]

/-- The text under one of the keys in one of the places. -/
def Finds (places : List Json) (keys : List String) (text : String) : Prop :=
  text ≠ "" ∧ ∃ fields, Json.obj fields ∈ places ∧ ∃ key ∈ keys, ∃ value,
    truthyField fields key = some value ∧ value.toStr = text

/-- The pull number in one of the places. -/
def FindsNumber (places : List Json) (number : Json) : Prop :=
  number.isNull = false ∧ ∃ place ∈ places, pullRequestNumber place = number

def HEAD_SHA_KEYS : List String := ["headSha", "head_sha"]

def REPOSITORY_KEYS : List String := ["repositoryFullName", "repository_full_name"]

/-- The number, the head and the repository are all somewhere. -/
def Present (places : List Json) : Prop :=
  (∃ number, FindsNumber places number) ∧ (∃ headSha, Finds places HEAD_SHA_KEYS headSha) ∧
    ∃ repository, Finds places REPOSITORY_KEYS repository

/-- The program posts a review with a number, a head and a repository that were found. -/
def PostsFound (places : List Json) (p : ReviewProgram ToolResult) : Prop :=
  ∃ number headSha repository, Posts p number headSha repository ∧ FindsNumber places number ∧
    Finds places HEAD_SHA_KEYS headSha ∧ Finds places REPOSITORY_KEYS repository

end Found

section Readable

/-- A value that has a text. -/
def HasText (value : Option Json) : Prop := ∃ v, value = some v ∧ v.toStr ≠ ""

/-- The fields of an object; nothing else has any. -/
def fieldsOf (value : Json) : Fields := value.asObj?.getD []

/-- The tool can read the number and the head off the diff, and the repository off the diff or
the payload of the source event. -/
structure Readable (source : Fields) (diff : Json) : Prop where
  number : (((fieldsOf diff).lookup "pullNumber").getD .null).isNull = false
  headSha : HasText (truthyField (fieldsOf diff) "headSha")
  repository :
    HasText ((truthyField (fieldsOf diff) "repositoryFullName").or (payloadRepository source))

/-- The payload embeds a pull request off which, or off the payload beside it, the tool can read
the same: a snake spelling in the pull request keeps the payload's value away. -/
def ReadableEmbedded (source payload : Fields) : Prop :=
  ∃ pullRequest,
    (truthyField payload "pull_request").or (payload.lookup "pullRequest") =
      some (.obj pullRequest) ∧
    (((pullRequest.lookup "pullNumber").getD .null).isNull = false ∨
      ((pullRequest.lookup "pull_number").getD .null).isNull = true ∧
        (pullRequestNumber (.obj payload)).isNull = false) ∧
    HasText ((truthyField pullRequest "headSha").or
      (if (truthyField pullRequest "head_sha").isSome then none
        else (truthyField payload "headSha").or (truthyField payload "head_sha"))) ∧
    HasText (((truthyField pullRequest "repositoryFullName").or
      (if (truthyField pullRequest "repository_full_name").isSome then none
        else payloadRepository payload)).or (payloadRepository source))

/-- The answer of the API, where the hydration asks it and it finds the pull request. -/
def fetchedPullRequest (api : ContextApi) (event : RuntimeEvent) : Option Json :=
  let explicitNumber := pullRequestNumber (payloadContextValue event.payload "pull_request_diff")
  let number :=
    if explicitNumber.truthy then explicitNumber else pullRequestNumber (.obj event.payload)
  match PrismApiClient.projectOf event with
  | none => none
  | some projectId =>
      if !api.configured || number.isNull then none
      else (api.getPullRequest projectId number).toOption

/-- What the route of the hydration supplies: a value that is taken as it is, or the pull request
that the payload embeds. -/
def OnRoute (api : ContextApi) (event : RuntimeEvent) (value : Json → Prop) (embedded : Prop) :
    Prop :=
  let explicitValue := payloadContextValue event.payload "pull_request_diff"
  if hasHydratedPullRequestDiff explicitValue then value explicitValue
  else if hasHydratedPullRequestDiff (embeddedPullRequestDiff event.payload) then embedded
  else
    match fetchedPullRequest api event with
    | some fetched => value fetched
    | none => if explicitValue.isObj then value explicitValue else embedded

/-- The tool can read what it needs off what the route of the hydration supplies. -/
def RouteReadable (api : ContextApi) (event : RuntimeEvent) (source : Fields) : Prop :=
  OnRoute api event (Readable source) (ReadableEmbedded source event.payload)

/-- The diff has a number under the spelling that the tool reads. -/
def Numbered (diff : Json) : Prop :=
  (((fieldsOf diff).lookup "pullNumber").getD .null).isNull = false

/-- The embedded pull request has the number under that spelling, or has it under neither spelling
and the payload has one. -/
def NumberedEmbedded (payload : Fields) : Prop :=
  ∃ pullRequest,
    (truthyField payload "pull_request").or (payload.lookup "pullRequest") =
      some (.obj pullRequest) ∧
    (((pullRequest.lookup "pullNumber").getD .null).isNull = false ∨
      ((pullRequest.lookup "pull_number").getD .null).isNull = true ∧
        (pullRequestNumber (.obj payload)).isNull = false)

/-- The tool can read a number off what the route of the hydration supplies. -/
def RouteNumbered (api : ContextApi) (event : RuntimeEvent) : Prop :=
  OnRoute api event Numbered (NumberedEmbedded event.payload)

end Readable

section Tool

variable {resultId : String} {action : PlannedAction} {context : AgentContext} {diff : Json}
  {source : Fields} {found : List Json}

theorem hasText_textField {fields : Fields} {key : String} :
    textField fields key "" ≠ "" ↔ HasText (truthyField fields key) := by
  unfold textField HasText
  cases truthyField fields key with
  | none => simp
  | some value => simp

theorem hasText_repositoryFullName (hsource : context.sourceEvent.event.payload = source)
    {fields : Fields} : repositoryFullName [] context fields ≠ "" ↔
      HasText ((truthyField fields "repositoryFullName").or (payloadRepository source)) := by
  have hinput : truthyField [] "repositoryFullName" = none := rfl
  unfold repositoryFullName HasText
  rw [hinput, Option.none_or, hsource]
  cases (truthyField fields "repositoryFullName").or (payloadRepository source) with
  | none => simp
  | some value => simp

/-- The number under the first spelling is the one that the hydration finds. -/
theorem pullRequestNumber_of_pullNumber {fields : Fields}
    (h : ((fields.lookup "pullNumber").getD .null).isNull = false) :
    pullRequestNumber (.obj fields) = (fields.lookup "pullNumber").getD .null := by
  cases hlookup : fields.lookup "pullNumber" with
  | none =>
      rw [hlookup] at h
      cases h
  | some value =>
      rw [hlookup] at h
      have hfirst : firstPresent fields PULL_NUMBER_KEYS = some value := by
        unfold firstPresent PULL_NUMBER_KEYS
        rw [List.findSome?_cons, hlookup, Option.filter_some, if_pos (by simpa using h)]
      unfold pullRequestNumber
      rw [hfirst]
      rfl

theorem finds_of_truthyField {fields : Fields} {keys : List String} {key : String}
    (hplace : .obj fields ∈ found) (hkey : key ∈ keys) {value : Json}
    (hvalue : truthyField fields key = some value) (htext : value.toStr ≠ "") :
    Finds found keys value.toStr :=
  ⟨htext, fields, hplace, key, hkey, value, hvalue, rfl⟩

/-- The tool posts a review with what was found exactly if it can read it. -/
theorem postsFound_iff (hinput : action.input = [])
    (hdiff : contextDiff context = fieldsOf diff)
    (hsource : context.sourceEvent.event.payload = source) (hfound : diff ∈ found)
    (hevent : .obj source ∈ found) :
    PostsFound found (execute true resultId action context) ↔ Readable source diff := by
  constructor
  · rintro ⟨number, headSha, repository, hposts, -, hsha, -⟩
    obtain ⟨rfl, hnumber, rfl, rfl, hrepository⟩ := (posts_iff hinput).1 hposts
    rw [hdiff] at hnumber hsha hrepository
    exact ⟨hnumber, hasText_textField.1 hsha.1, (hasText_repositoryFullName hsource).1 hrepository⟩
  · rintro ⟨hnumber, hsha, hrepository⟩
    have hobj : diff = .obj (fieldsOf diff) := by
      cases diff with
      | obj fields => rfl
      | _ => cases hnumber
    have hplace : .obj (fieldsOf diff) ∈ found := hobj ▸ hfound
    have hposts := (@posts_iff resultId action context hinput _ _ _).2
      ⟨rfl, by rw [hdiff]; exact hnumber, rfl, rfl, by
        rw [hdiff]
        exact (hasText_repositoryFullName hsource).2 hrepository⟩
    rw [hdiff] at hposts
    refine ⟨_, _, _, hposts, ⟨hnumber, _, hplace, pullRequestNumber_of_pullNumber hnumber⟩, ?_, ?_⟩
    · obtain ⟨value, hvalue, htext⟩ := hsha
      have htext' : textField (fieldsOf diff) "headSha" "" = value.toStr := by
        unfold textField
        rw [hvalue]
      rw [htext']
      exact finds_of_truthyField hplace (by decide) hvalue htext
    · obtain ⟨value, hvalue, htext⟩ := hrepository
      have htext' : repositoryFullName [] context (fieldsOf diff) = value.toStr := by
        have hnone : truthyField [] "repositoryFullName" = none := rfl
        unfold repositoryFullName
        rw [hnone, Option.none_or, hsource, hvalue]
      rw [htext']
      rcases Option.or_eq_some_iff.1 hvalue with hvalue | ⟨-, hvalue⟩
      · exact finds_of_truthyField hplace (by decide) hvalue htext
      · rcases Option.or_eq_some_iff.1 hvalue with hvalue | ⟨-, hvalue⟩
        · exact finds_of_truthyField hevent (by decide) hvalue htext
        · exact finds_of_truthyField hevent (by decide) hvalue htext

end Tool

section Routes

variable {api : ContextApi} {event : RuntimeEvent} {source : Fields}

/-- The field that a backfilled object has under the key. -/
theorem truthyField_backfill_self {diff : Fields} {key snakeKey : String} {value : Option Json}
    (hvalue : ∀ v, value = some v → v.truthy = true) :
    truthyField (backfill diff key snakeKey value) key =
      (truthyField diff key).or (if (truthyField diff snakeKey).isSome then none else value) := by
  unfold backfill
  cases hkey : truthyField diff key with
  | some v =>
      simp [hkey]
  | none =>
      cases hsnake : truthyField diff snakeKey with
      | some v => simp [hkey]
      | none =>
          cases value with
          | none => simp [hkey]
          | some v =>
              simp [truthyField, Dict.lookup_insert_self, hvalue v rfl]

theorem lookup_backfill_of_ne {diff : Fields} {key snakeKey other : String}
    {value : Option Json} (h : other ≠ key) :
    (backfill diff key snakeKey value).lookup other = diff.lookup other := by
  unfold backfill
  split
  · rfl
  · split
    · exact Dict.lookup_insert_of_ne h
    · rfl

theorem truthyField_truthy {fields : Fields} {key : String} (value : Json)
    (h : truthyField fields key = some value) : value.truthy = true :=
  (Option.filter_eq_some_iff.1 h).2

theorem truthy_or {first second : Option Json} (hfirst : ∀ v, first = some v → v.truthy = true)
    (hsecond : ∀ v, second = some v → v.truthy = true) (v : Json)
    (hv : first.or second = some v) : v.truthy = true := by
  rcases Option.or_eq_some_iff.1 hv with hv | ⟨-, hv⟩
  · exact hfirst v hv
  · exact hsecond v hv

theorem truthyField_congr {fields fields' : Fields} {key : String}
    (h : fields.lookup key = fields'.lookup key) :
    truthyField fields key = truthyField fields' key := by
  unfold truthyField
  rw [h]

theorem readable_obj {fields : Fields} : Readable source (.obj fields) ↔
    ((fields.lookup "pullNumber").getD .null).isNull = false ∧
      HasText (truthyField fields "headSha") ∧
        HasText ((truthyField fields "repositoryFullName").or (payloadRepository source)) :=
  ⟨fun h => ⟨h.number, h.headSha, h.repository⟩, fun h => ⟨h.1, h.2.1, h.2.2⟩⟩

/-- The number of an embedded pull request, in terms of the payload. -/
theorem isNull_pullNumber_iff {payload pullRequest numbered : Fields}
    (h : (if ((pullRequest.lookup "pullNumber").getD .null).isNull &&
        ((pullRequest.lookup "pull_number").getD .null).isNull &&
          !(pullRequestNumber (.obj payload)).isNull then
        Dict.insert pullRequest "pullNumber" (pullRequestNumber (.obj payload))
      else pullRequest) = numbered) :
    ((numbered.lookup "pullNumber").getD .null).isNull = false ↔
      ((pullRequest.lookup "pullNumber").getD .null).isNull = false ∨
        ((pullRequest.lookup "pull_number").getD .null).isNull = true ∧
          (pullRequestNumber (.obj payload)).isNull = false := by
  rw [← h]
  split
  next hmissing =>
    simp only [Bool.and_eq_true, Bool.not_eq_true'] at hmissing
    rw [Dict.lookup_insert_self]
    simp [hmissing]
  next hmissing =>
    refine ⟨.inl, ?_⟩
    rintro (hright | ⟨hsnake, hpresent⟩)
    · exact hright
    · rw [hsnake, hpresent] at hmissing
      simpa using hmissing

/-- Whether the tool finds a number in an embedded pull request, in terms of the payload. -/
theorem numbered_embedded_iff {payload : Fields} :
    Numbered (embeddedPullRequestDiff payload) ↔ NumberedEmbedded payload := by
  have hnull : ¬Numbered .null := fun h => by cases h
  unfold embeddedPullRequestDiff
  split
  next pullRequest hembedded =>
    dsimp only
    generalize hnumbered : (if ((pullRequest.lookup "pullNumber").getD .null).isNull &&
      ((pullRequest.lookup "pull_number").getD .null).isNull &&
        !(pullRequestNumber (.obj payload)).isNull then
      Dict.insert pullRequest "pullNumber" (pullRequestNumber (.obj payload))
      else pullRequest) = numbered
    have hnumber := isNull_pullNumber_iff hnumbered
    change (((backfill _ _ _ (payloadRepository payload)).lookup "pullNumber").getD .null).isNull =
      false ↔ _
    rw [lookup_backfill_of_ne (by decide), lookup_backfill_of_ne (by decide), hnumber]
    constructor
    · intro hpull
      exact ⟨pullRequest, hembedded, hpull⟩
    · rintro ⟨pullRequest', hembedded', hpull⟩
      rw [hembedded] at hembedded'
      cases hembedded'
      exact hpull
  next hembedded =>
    refine iff_of_false hnull ?_
    rintro ⟨pullRequest, hpullRequest, -⟩
    exact hembedded pullRequest hpullRequest

/-- What the tool can read off an embedded pull request, in terms of the payload. -/
theorem readable_embedded_iff {payload : Fields} :
    Readable source (embeddedPullRequestDiff payload) ↔ ReadableEmbedded source payload := by
  have hnull : ¬Readable source .null := fun h => by cases h.number
  unfold embeddedPullRequestDiff
  split
  next pullRequest hembedded =>
    dsimp only
    generalize hnumbered : (if ((pullRequest.lookup "pullNumber").getD .null).isNull &&
      ((pullRequest.lookup "pull_number").getD .null).isNull &&
        !(pullRequestNumber (.obj payload)).isNull then
      Dict.insert pullRequest "pullNumber" (pullRequestNumber (.obj payload))
      else pullRequest) = numbered
    have hother : ∀ {key}, key ≠ "pullNumber" → numbered.lookup key = pullRequest.lookup key := by
      intro key hkey
      rw [← hnumbered]
      split
      · exact Dict.lookup_insert_of_ne hkey
      · rfl
    have hnumber := isNull_pullNumber_iff hnumbered
    have hhead : truthyField (backfill numbered "headSha" "head_sha"
        ((truthyField payload "headSha").or (truthyField payload "head_sha"))) "headSha" = _ :=
      truthyField_backfill_self (truthy_or truthyField_truthy truthyField_truthy)
    have hrepository := @truthyField_backfill_self (backfill numbered "headSha" "head_sha"
      ((truthyField payload "headSha").or (truthyField payload "head_sha")))
      "repositoryFullName" "repository_full_name" (payloadRepository payload)
      (truthy_or truthyField_truthy truthyField_truthy)
    have hdated : ∀ {key}, key ≠ "pullNumber" → key ≠ "headSha" →
        truthyField (backfill numbered "headSha" "head_sha"
          ((truthyField payload "headSha").or (truthyField payload "head_sha"))) key =
          truthyField pullRequest key := fun hpull hsha =>
      truthyField_congr ((lookup_backfill_of_ne hsha).trans (hother hpull))
    rw [truthyField_congr (hother (by decide)), truthyField_congr (hother (by decide))] at hhead
    rw [@hdated "repositoryFullName" (by decide) (by decide),
      @hdated "repository_full_name" (by decide) (by decide)] at hrepository
    change Readable source (.obj (backfill _ _ _ (payloadRepository payload))) ↔ _
    rw [readable_obj, lookup_backfill_of_ne (by decide), lookup_backfill_of_ne (by decide), hnumber,
      truthyField_congr (lookup_backfill_of_ne (by decide)), hhead, hrepository]
    constructor
    · rintro ⟨hpull, hsha, hrepo⟩
      exact ⟨pullRequest, hembedded, hpull, hsha, hrepo⟩
    · rintro ⟨pullRequest', hembedded', hread⟩
      rw [hembedded] at hembedded'
      cases hembedded'
      exact hread
  next hembedded =>
    refine iff_of_false hnull ?_
    rintro ⟨pullRequest, hpullRequest, -⟩
    exact hembedded pullRequest hpullRequest

/-- The value that the hydration leaves is that of the route. -/
theorem onRoute_iff {diff : Json} {value : Json → Prop} {embedded : Prop}
    (hembedded : value (embeddedPullRequestDiff event.payload) ↔ embedded)
    (h : PrismApiClient.pullRequestDiffContext api event
      (payloadContextValue event.payload "pull_request_diff") = .ok diff) :
    OnRoute api event value embedded ↔ value diff := by
  unfold PrismApiClient.pullRequestDiffContext at h
  unfold OnRoute
  dsimp only at h ⊢
  split at h
  next hexplicit =>
    rw [if_pos hexplicit]
    cases h
    rfl
  next hexplicit =>
    rw [if_neg hexplicit]
    split at h
    next hhydrated =>
      rw [if_pos hhydrated]
      cases h
      exact hembedded.symm
    next hhydrated =>
      rw [if_neg hhydrated]
      have hresolved : (if (payloadContextValue event.payload "pull_request_diff").isObj = true then
          value (payloadContextValue event.payload "pull_request_diff") else embedded) ↔
        value (if (payloadContextValue event.payload "pull_request_diff").isObj = true then
          payloadContextValue event.payload "pull_request_diff"
          else embeddedPullRequestDiff event.payload) := by
        split
        · rfl
        · exact hembedded.symm
      unfold fetchedPullRequest
      dsimp only
      generalize (if (pullRequestNumber (payloadContextValue event.payload
        "pull_request_diff")).truthy = true then
          pullRequestNumber (payloadContextValue event.payload "pull_request_diff")
        else pullRequestNumber (.obj event.payload)) = number at h ⊢
      revert h
      cases PrismApiClient.projectOf event with
      | none =>
          rintro ⟨⟩
          exact hresolved
      | some projectId =>
          dsimp only
          cases !api.configured || number.isNull with
          | true =>
              rintro ⟨⟩
              exact hresolved
          | false =>
              rw [if_neg Bool.false_ne_true, if_neg Bool.false_ne_true]
              cases api.getPullRequest projectId number with
              | ok fetched =>
                  rintro ⟨⟩
                  rfl
              | error exc =>
                  dsimp only
                  cases exc.notFound with
                  | true =>
                      rintro ⟨⟩
                      exact hresolved
                  | false => rintro ⟨⟩

/-- The entities have what the hydration of the diff returns. -/
theorem hydrated_diff {keys : List String} {entities : Fields}
    (hkeys : "pull_request_diff" ∈ keys)
    (hentities : PrismApiClient.fetchContextEntities api event keys = .ok entities) :
    ∃ diff, entities.lookup "pull_request_diff" = some diff ∧
      PrismApiClient.pullRequestDiffContext api event
        (payloadContextValue event.payload "pull_request_diff") = .ok diff := by
  have hnot : ¬PrismApiClient.Raises api event keys := by
    rintro ⟨-, hraised⟩
    obtain ⟨exc, hexc⟩ := Option.isSome_iff_exists.1 hraised
    rw [PrismApiClient.fetchContextEntities_of_raised hexc hkeys] at hentities
    cases hentities
  have hlookup := PrismApiClient.lookup_fetchContextEntities hnot "pull_request_diff"
  rw [hentities, if_pos hkeys] at hlookup
  have hvalue : entities.lookup "pull_request_diff" = some _ := Except.ok.inj hlookup
  cases hdiff : PrismApiClient.pullRequestDiffContext api event
      (payloadContextValue event.payload "pull_request_diff") with
  | error exc =>
      refine absurd ⟨hkeys, ?_⟩ hnot
      unfold PrismApiClient.raised
      rw [hdiff]
      rfl
  | ok diff =>
      refine ⟨diff, hvalue.trans (congrArg some ?_), rfl⟩
      unfold PrismApiClient.valueOf PrismApiClient.entityValue
      rw [if_neg (by decide)]
      have hcontext : ∀ entities, PrismApiClient.contextValue api event entities
          "pull_request_diff" = .ok diff := fun _ => hdiff
      rw [hcontext]

end Routes

section Claim

/-- The context is hydrated from its source event, with the diff, and the action of the review
has no input. -/
structure Reviews (api : ContextApi) (store : Option ContextProvider.DiffPayloadStore)
    (requiredContext : List String) (context : AgentContext) (action : PlannedAction) : Prop where
  required : "pull_request_diff" ∈ requiredContext
  hydrated : PrismApiClient.fetchContextEntities api
    (ContextProvider.resolveDiffPointer store context.sourceEvent.event requiredContext)
    requiredContext = .ok context.entities
  input : action.input = []

/-- The places of the hydration that the context comes from. -/
def reviewPlaces (store : Option ContextProvider.DiffPayloadStore)
    (requiredContext : List String) (context : AgentContext) : List Json :=
  places context.sourceEvent.event.payload
    (ContextProvider.resolveDiffPointer store context.sourceEvent.event requiredContext).payload
    ((context.entities.lookup "pull_request_diff").getD .null)

variable {api : ContextApi} {store : Option ContextProvider.DiffPayloadStore}
  {requiredContext : List String} {context : AgentContext} {action : PlannedAction}

/-- The tool posts the number, the head and the repository when they are there, and never fakes a
success, if and only if it can read a number off the route of the hydration, and the rest too when
all three are there. -/
theorem review_posts_found_iff (resultId : String)
    (h : Reviews api store requiredContext context action) :
    ((Present (reviewPlaces store requiredContext context) →
        PostsFound (reviewPlaces store requiredContext context)
          (execute true resultId action context)) ∧
      ¬FakesSuccess (execute true resultId action context)) ↔
    (RouteNumbered api
        (ContextProvider.resolveDiffPointer store context.sourceEvent.event requiredContext) ∧
      (Present (reviewPlaces store requiredContext context) →
        RouteReadable api
          (ContextProvider.resolveDiffPointer store context.sourceEvent.event requiredContext)
          context.sourceEvent.event.payload)) := by
  obtain ⟨diff, hlookup, hdiff⟩ := hydrated_diff h.required h.hydrated
  have hcontext : contextDiff context = fieldsOf diff := by
    unfold contextDiff
    rw [hlookup]
    cases diff with
    | obj fields => rfl
    | _ => rfl
  have hplace : diff ∈ reviewPlaces store requiredContext context := by
    unfold reviewPlaces
    rw [hlookup]
    exact List.mem_cons_self
  have hsource : .obj context.sourceEvent.event.payload ∈
      reviewPlaces store requiredContext context := by
    unfold reviewPlaces places
    simp
  have hnumbered : ¬FakesSuccess (execute true resultId action context) ↔ Numbered diff := by
    rw [fakesSuccess_iff h.input, Bool.not_eq_true, hcontext]
    rfl
  unfold RouteNumbered RouteReadable
  rw [onRoute_iff numbered_embedded_iff hdiff, onRoute_iff readable_embedded_iff hdiff,
    postsFound_iff h.input hcontext rfl hplace hsource, hnumbered]
  exact and_comm

end Claim

section Sample

/-- A configured client that finds no pull request. -/
def reviewApi : ContextApi :=
  { configured := true
    searchWorkItems := fun _ _ => .ok []
    getWorkspaceSprints := fun _ => .ok []
    getWorkspaceMemberWorkloads := fun _ => .ok []
    getPullRequest := fun _ _ => .error { notFound := true, message := "not found" }
    computeBacklogSignals := fun _ _ => .null }

/-- A pull request with one patch, its number, head and repository under the given keys. -/
def embeddedPullRequest (numberKey headKey repositoryKey : String) : Fields :=
  [(numberKey, .int 7), (headKey, .str "abc"), (repositoryKey, .str "owner/repo"),
    ("files", .arr [.obj [("patch", .str "@@")]])]

/-- The context of an event with the payload, hydrated with the diff. -/
def reviewContext (payload diff : Fields) : AgentContext :=
  { workspaceId := "ws", projectId := some "project"
    sourceEvent := .wrap
      { kind := .domain, eventId := "event", eventType := "pull_request.opened"
        workspaceId := "ws", projectId := some "project", payload := payload }
    workflowId := "review"
    entities := [("pull_request_diff", .obj diff)] }

def reviewAction : PlannedAction :=
  { actionId := "a1", planId := "plan", actionType := "review"
    toolName := "submit_pull_request_review", instruction := "Review the change."
    idempotencyKey := "key" }

/-- A store whose blob has the pull request without its repository. -/
def reviewBlobs : ContextProvider.DiffPayloadStore := fun _ _ =>
  .ok [("pullRequest", .obj [("pullNumber", .int 7), ("headSha", .str "abc"),
      ("files", .arr [.obj [("patch", .str "@@")]])]),
    ("repositoryFullName", .str "owner/repo")]

/-- The event points to the blob, and the diff is what the hydration makes of it. -/
def blobContext : AgentContext :=
  reviewContext [("diffObjectName", .str "blob")]
    [("pullNumber", .int 7), ("headSha", .str "abc"),
      ("files", .arr [.obj [("patch", .str "@@")]]), ("repositoryFullName", .str "owner/repo")]

/-- A spelling that only the hydration accepts. -/
def snakeContext : AgentContext :=
  reviewContext
    [("pull_request",
      .obj (embeddedPullRequest "pull_number" "head_sha" "repository_full_name"))]
    (embeddedPullRequest "pull_number" "head_sha" "repository_full_name")

/-- A pull request of a blob is posted, with the repository that the blob has beside it. -/
theorem camel_review_posted :
    (Present (reviewPlaces (some reviewBlobs) ["pull_request_diff"] blobContext) ∧
      PostsFound (reviewPlaces (some reviewBlobs) ["pull_request_diff"] blobContext)
        (execute true "result" reviewAction blobContext)) ∧
      ¬FakesSuccess (execute true "result" reviewAction blobContext) := by
  have hplace : Json.obj [("pullNumber", .int 7), ("headSha", .str "abc"),
      ("files", .arr [.obj [("patch", .str "@@")]]), ("repositoryFullName", .str "owner/repo")] ∈
      reviewPlaces (some reviewBlobs) ["pull_request_diff"] blobContext := List.mem_cons_self
  have hpresent : Present (reviewPlaces (some reviewBlobs) ["pull_request_diff"] blobContext) := by
    refine ⟨⟨.int 7, rfl, _, hplace, rfl⟩, ⟨"abc", ?_⟩, ⟨"owner/repo", ?_⟩⟩
    · exact @finds_of_truthyField _ _ _ "headSha" hplace (by decide) (.str "abc") rfl (by decide)
    · exact @finds_of_truthyField _ _ _ "repositoryFullName" hplace (by decide)
        (.str "owner/repo") rfl (by decide)
  have hreadable : RouteReadable reviewApi (ContextProvider.resolveDiffPointer (some reviewBlobs)
      blobContext.sourceEvent.event ["pull_request_diff"])
      blobContext.sourceEvent.event.payload :=
    ⟨rfl, ⟨.str "abc", rfl, by decide⟩, ⟨.str "owner/repo", rfl, by decide⟩⟩
  have hreviews : Reviews reviewApi (some reviewBlobs) ["pull_request_diff"] blobContext
      reviewAction := ⟨List.mem_singleton_self _, rfl, rfl⟩
  obtain ⟨hposts, hfakes⟩ :=
    (review_posts_found_iff "result" hreviews).2 ⟨hreadable.number, fun _ => hreadable⟩
  exact ⟨⟨hpresent, hposts hpresent⟩, hfakes⟩

/-- A pull request spelled in snake case is not posted, and success is reported. -/
theorem snake_review_faked :
    ¬∀ (api : ContextApi) (store : Option ContextProvider.DiffPayloadStore)
        (requiredContext : List String) (context : AgentContext) (action : PlannedAction)
        (resultId : String), Reviews api store requiredContext context action →
      Present (reviewPlaces store requiredContext context) →
        PostsFound (reviewPlaces store requiredContext context)
            (execute true resultId action context) ∧
          ¬FakesSuccess (execute true resultId action context) := by
  intro h
  have hplace : Json.obj (embeddedPullRequest "pull_number" "head_sha" "repository_full_name") ∈
      reviewPlaces none ["pull_request_diff"] snakeContext := List.mem_cons_self
  have hpresent : Present (reviewPlaces none ["pull_request_diff"] snakeContext) := by
    refine ⟨⟨.int 7, rfl, _, hplace, rfl⟩, ⟨"abc", ?_⟩, ⟨"owner/repo", ?_⟩⟩
    · exact @finds_of_truthyField _ _ _ "head_sha" hplace (by decide) (.str "abc") rfl
        (by decide)
    · exact @finds_of_truthyField _ _ _ "repository_full_name" hplace (by decide)
        (.str "owner/repo") rfl (by decide)
  obtain ⟨-, hfakes⟩ := h reviewApi none ["pull_request_diff"] snakeContext reviewAction "result"
    ⟨List.mem_singleton_self _, rfl, rfl⟩ hpresent
  exact hfakes ((fakesSuccess_iff rfl).2 rfl)

end Sample

end PrismAgent
