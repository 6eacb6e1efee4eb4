import PrismAgent.Capabilities.SprintTools
import PrismAgent.Effect.History
import PrismAgent.Sorting.Stable
import PrismAgent.Text.Joined

/-!
# Two runs that plan a sprint

Each run creates a sprint and then maps work items into the planned sprint of the workspace
that was created last. The runs call the API in any order. The items of a run land in its
own sprint where that sprint is the newest when the run lists the sprints.
-/

namespace PrismAgent

open Effect
open Function (update)

section Newest

/-- No planned sprint in the list was created after `own`, and none in front of it at the
same time. -/
def NewestPlanned (own : Json) (sprints : List Json) : Prop :=
  ∃ before after, sprints.filter isPlannedSprint = before ++ own :: after ∧
    (∀ sprint ∈ before, sprintText sprint "createdAt" < sprintText own "createdAt") ∧
    ∀ sprint ∈ after, sprintText sprint "createdAt" ≤ sprintText own "createdAt"

variable {own : Json} {sprints : List Json} {sprintId : String}

/-- The id that is looked up is that of the newest planned sprint. -/
theorem latestPlanned_eq_some_iff : latestPlanned sprints = some sprintId ↔
    ∃ sprint, NewestPlanned sprint sprints ∧ sprintIdOf sprint = some sprintId := by
  unfold latestPlanned
  dsimp only
  rw [Option.bind_eq_some_iff]
  refine exists_congr fun sprint => and_congr_left fun _ => ?_
  rw [Stable.head?_mergeSort_eq_some_iff]
  · simp only [Stable.IsFirst, NewestPlanned, decide_eq_false_iff_not, decide_eq_true_eq,
      String.not_le]
  · intro a b c hab hbc
    exact decide_eq_true (String.le_trans (of_decide_eq_true hbc) (of_decide_eq_true hab))
  · intro a b
    rw [Bool.or_eq_true, decide_eq_true_eq, decide_eq_true_eq]
    exact String.le_total _ _

/-- Where no other sprint has its id, `own` is looked up if and only if it is the newest. -/
theorem latestPlanned_eq_own_iff (hid : sprintIdOf own = some sprintId)
    (hunique : ∀ sprint ∈ sprints, sprintIdOf sprint = some sprintId → sprint = own) :
    latestPlanned sprints = some sprintId ↔ NewestPlanned own sprints := by
  rw [latestPlanned_eq_some_iff]
  constructor
  · rintro ⟨sprint, hnewest, hsprint⟩
    have hmem : sprint ∈ sprints.filter isPlannedSprint := by
      obtain ⟨before, after, hsplit, -, -⟩ := hnewest
      rw [hsplit]
      exact List.mem_append_right before List.mem_cons_self
    rwa [← hunique sprint (List.mem_of_mem_filter hmem) hsprint]
  · exact fun hnewest => ⟨own, hnewest, hid⟩

end Newest

section Server

/-- How the API names, dates and lists sprints. -/
structure SprintApi where
  sprintId : ℕ → String
  createdAt : ℕ → String
  listing : List Json → List Json

/-- The sprints of each workspace, and how many have been created by the runs. -/
structure SprintServer where
  sprints : String → List Json
  created : ℕ := 0

variable (api : SprintApi)

/-- The record of the `n`-th created sprint: planned, with a creation time. -/
def SprintApi.record (n : ℕ) (payload : Fields) : Fields :=
  [("sprintId", .str (api.sprintId n)), ("status", .str "planned"),
    ("createdAt", .str (api.createdAt n))] ++ payload

/-- The API stores every sprint that is created and lists what it stores. -/
def SprintApi.sem : Semantics SprintCall SprintCall.Answer Exc SprintServer
  | .createSprint workspaceId payload, server =>
      (.ok (api.record server.created payload),
        { sprints := update server.sprints workspaceId
            (server.sprints workspaceId ++ [.obj (api.record server.created payload)])
          created := server.created + 1 })
  | .getWorkspaceSprints workspaceId, server =>
      (.ok (api.listing (server.sprints workspaceId)), server)
  | .addSprintWorkItems _ _ _, server => (.ok [], server)

/-- Created sprints get ids of their own, and the list holds what is stored. -/
structure SprintApi.Stores (api : SprintApi) (server : SprintServer) : Prop where
  nonempty : ∀ n, api.sprintId n ≠ ""
  injective : Function.Injective api.sprintId
  fresh : ∀ n workspaceId, ∀ sprint ∈ server.sprints workspaceId,
    sprintIdOf sprint ≠ some (api.sprintId n)
  listing : ∀ sprints sprint, sprint ∈ api.listing sprints ↔ sprint ∈ sprints

variable {api} {n : ℕ} {payload : Fields}

theorem sprintIdOf_record (h : api.sprintId n ≠ "") :
    sprintIdOf (.obj (api.record n payload)) = some (api.sprintId n) := by
  simp [sprintIdOf, Json.asObj?, truthyField, SprintApi.record, Json.truthy, Json.toStr, h]

end Server

section Runs

/-- A run that creates a sprint and maps items into it. -/
structure SprintRun where
  dates : DefaultDates
  context : AgentContext
  create : PlannedAction
  add : PlannedAction
  createdId : String
  addedId : String

namespace SprintRun

variable (run : SprintRun)

def workspaceId : String := textField run.create.input "workspaceId" run.context.workspaceId

def itemIds : List String := validItemIds (run.add.input.lookup "itemIds")

/-- The documented plan: items are given, no sprint is, and both actions are of one
workspace. -/
structure Documented : Prop where
  workspace : textField run.add.input "workspaceId" run.context.workspaceId = run.workspaceId
  noSprint : textField run.add.input "sprintId" "" = ""
  items : run.itemIds ≠ []

/-- The two actions, one after the other. -/
def program : SprintProgram (ToolResult × ToolResult) := do
  let created ← CreateSprintTool.execute true run.dates run.createdId run.create run.context
  let added ← AddSprintWorkItemsTool.execute true run.addedId run.add run.context
  return (created, added)

def createCall : SprintCall :=
  .createSprint run.workspaceId (withRequester (createSprintPayload run.dates run.create.input)
    (requestedByUserId run.create.input run.context))

def addCall (sprintId : String) : SprintCall :=
  .addSprintWorkItems run.workspaceId sprintId
    (AddSprintWorkItemsTool.addPayload run.itemIds
      (requestedByUserId run.add.input run.context))

/-- The result of creating the sprint. -/
def createdResult (output : Fields) : ToolResult :=
  { resultId := run.createdId
    planId := run.create.planId
    actionId := run.create.actionId
    toolName := "create_sprint"
    success := true
    output := output }

/-- What is left to do when the sprints have been listed. -/
def mapInto (sprintId : String) : SprintProgram ToolResult :=
  if sprintId = "" then
    .pure (AddSprintWorkItemsTool.failed run.addedId run.add
      "No sprintId given and no planned sprint exists to map items into.")
  else
    .call (run.addCall sprintId) fun
      | .ok _ => .pure (AddSprintWorkItemsTool.added run.addedId run.add sprintId run.itemIds)
      | .error x => .raise x

/-- What is left to do when the sprint has been created. -/
def mapItems : SprintProgram ToolResult :=
  .call (.getWorkspaceSprints run.workspaceId) fun
    | .ok sprints => run.mapInto ((latestPlanned sprints).getD "")
    | .error x => if x.isRuntimeError then run.mapInto "" else .raise x

/-- What is left to do when the creation was answered. -/
def afterCreate : Except Exc Fields → SprintProgram (ToolResult × ToolResult)
  | .ok output => run.mapItems.bind fun added => .pure (run.createdResult output, added)
  | .error x => .raise x

variable {run}

theorem execute_add (h : run.Documented) :
    AddSprintWorkItemsTool.execute true run.addedId run.add run.context = run.mapItems := by
  have hresolve : ∀ sprintId : String,
      (if sprintId = "" then
        pure (AddSprintWorkItemsTool.failed run.addedId run.add
          "No sprintId given and no planned sprint exists to map items into.")
      else do
        let _ ← Program.perform (SprintCall.addSprintWorkItems run.workspaceId sprintId
          (AddSprintWorkItemsTool.addPayload run.itemIds
            (requestedByUserId run.add.input run.context)))
        return AddSprintWorkItemsTool.added run.addedId run.add sprintId run.itemIds) =
      run.mapInto sprintId := by
    intro sprintId
    unfold mapInto
    split
    · rfl
    · refine congrArg (Program.call (run.addCall sprintId)) (funext fun r => ?_)
      cases r with
      | ok _ => rfl
      | error x => rfl
  have hitems : validItemIds (run.add.input.lookup "itemIds") ≠ [] := h.items
  unfold AddSprintWorkItemsTool.execute
  dsimp only
  rw [h.workspace, h.noSprint, if_neg hitems, if_pos rfl, if_pos rfl]
  refine congrArg (Program.call (SprintCall.getWorkspaceSprints run.workspaceId))
    (funext fun r => ?_)
  cases r with
  | ok sprints => exact hresolve _
  | error x =>
      change (((if x.isRuntimeError then pure none else .raise x :
        SprintProgram (Option String)).bind fun id => pure (id.getD "")).bind _) =
          if x.isRuntimeError then run.mapInto "" else .raise x
      cases hruntime : x.isRuntimeError with
      | true => exact hresolve ""
      | false => rfl

theorem program_eq (h : run.Documented) : run.program = .call run.createCall run.afterCreate := by
  unfold program
  rw [execute_add h]
  refine congrArg (Program.call run.createCall) (funext fun r => ?_)
  cases r with
  | ok output => rfl
  | error x => rfl

/-- Where a run stands after calls that were all answered. -/
inductive Stage (run : SprintRun) :
    List (Event SprintCall SprintCall.Answer Exc) → SprintProgram (ToolResult × ToolResult) → Prop
  | start : Stage run [] run.program
  | created (output : Fields) :
      Stage run [⟨run.createCall, .ok output⟩]
        (run.mapItems.bind fun added => .pure (run.createdResult output, added))
  | listed (output : Fields) (sprints : List Json) :
      Stage run [⟨run.createCall, .ok output⟩,
          ⟨.getWorkspaceSprints run.workspaceId, .ok sprints⟩]
        ((run.mapInto ((latestPlanned sprints).getD "")).bind fun added =>
          .pure (run.createdResult output, added))
  | added (output : Fields) {sprints : List Json} {sprintId : String} (answer : Fields)
      (result : ToolResult × ToolResult) (hlatest : latestPlanned sprints = some sprintId)
      (hid : sprintId ≠ "") :
      Stage run [⟨run.createCall, .ok output⟩,
          ⟨.getWorkspaceSprints run.workspaceId, .ok sprints⟩, ⟨run.addCall sprintId, .ok answer⟩]
        (.pure result)

/-- All calls so far were answered. -/
def Answered (events : List (Event SprintCall SprintCall.Answer Exc)) : Prop :=
  ∀ event ∈ events, ∃ answer, event.2 = .ok answer

variable {events : List (Event SprintCall SprintCall.Answer Exc)}
  {q : SprintProgram (ToolResult × ToolResult)}

theorem Answered.head {e : SprintCall} {r : Except Exc e.Answer}
    (h : Answered (⟨e, r⟩ :: events)) : ∃ answer, r = .ok answer :=
  h _ List.mem_cons_self

theorem Answered.tail {event : Event SprintCall SprintCall.Answer Exc}
    (h : Answered (event :: events)) : Answered events :=
  fun other hother => h other (List.mem_cons_of_mem event hother)

theorem stage_of_continues (h : run.Documented) (hanswered : Answered events)
    (hcontinues : run.program.Continues events q) : Stage run events q := by
  cases events with
  | nil =>
      rw [Program.continues_nil_iff.1 hcontinues]
      exact .start
  | cons first events =>
      rw [program_eq h] at hcontinues
      obtain ⟨r, rfl, hcreated⟩ := Program.continues_cons_iff.1 hcontinues
      obtain ⟨output, rfl⟩ := hanswered.head
      cases events with
      | nil =>
          rw [Program.continues_nil_iff.1 hcreated]
          exact .created output
      | cons second events =>
          obtain ⟨r, rfl, hlisted⟩ := Program.continues_cons_iff.1 hcreated
          obtain ⟨sprints, rfl⟩ := hanswered.tail.head
          cases events with
          | nil =>
              rw [Program.continues_nil_iff.1 hlisted]
              exact .listed output sprints
          | cons third events =>
              change ((run.mapInto ((latestPlanned sprints).getD "")).bind fun added =>
                .pure (run.createdResult output, added)).Continues (third :: events) q at hlisted
              by_cases hid : (latestPlanned sprints).getD "" = ""
              · rw [mapInto, if_pos hid] at hlisted
                change (Program.pure _).Continues _ _ at hlisted
                cases (Program.continues_pure_iff.1 hlisted).1
              · rw [mapInto, if_neg hid] at hlisted
                obtain ⟨r, rfl, hadded⟩ := Program.continues_cons_iff.1 hlisted
                obtain ⟨answer, rfl⟩ := hanswered.tail.tail.head
                change (Program.pure _).Continues _ _ at hadded
                obtain ⟨rfl, rfl⟩ := Program.continues_pure_iff.1 hadded
                cases hlatest : latestPlanned sprints with
                | none =>
                    rw [hlatest] at hid
                    exact absurd rfl hid
                | some sprintId =>
                    rw [hlatest] at hid
                    exact .added output answer _ hlatest hid

/-- A run creates its sprint first. -/
theorem Stage.events_eq_nil {workspaceId : String} {payload : Fields}
    {k : Except Exc Fields → SprintProgram (ToolResult × ToolResult)}
    (h : Stage run events (.call (.createSprint workspaceId payload) k)) : events = [] := by
  generalize hq : (Program.call (SprintCall.createSprint workspaceId payload) k :
    SprintProgram (ToolResult × ToolResult)) = q at h
  cases h with
  | start => rfl
  | created output => cases hq
  | listed output sprints =>
      unfold mapInto at hq
      split at hq
      · cases hq
      · cases hq
  | added => cases hq

section Added

variable {workspaceId sprintId : String} {payload output : Fields} {r : Except Exc Fields}
  {sprints : List Json}

/-- A run that has added its items has created a sprint and looked the id up. -/
theorem Stage.exists_of_added (h : Stage run events q)
    (hadd : ⟨.addSprintWorkItems workspaceId sprintId payload, r⟩ ∈ events) :
    workspaceId = run.workspaceId ∧ ∃ output sprints, ⟨run.createCall, .ok output⟩ ∈ events ∧
      ⟨.getWorkspaceSprints run.workspaceId, .ok sprints⟩ ∈ events ∧
        latestPlanned sprints = some sprintId := by
  cases h with
  | start => cases hadd
  | created output => simp [createCall] at hadd
  | listed output sprints => simp [createCall] at hadd
  | @added output sprints found answer result hlatest hid =>
      have hevent : (⟨.addSprintWorkItems workspaceId sprintId payload, r⟩ :
          Event SprintCall SprintCall.Answer Exc) = ⟨run.addCall found, .ok answer⟩ := by
        simpa [createCall] using hadd
      cases hevent
      exact ⟨rfl, output, sprints, by simp, by simp, hlatest⟩

/-- A run that has ended has listed the sprints; if it found none it has added nothing. -/
theorem Stage.ended {result : ToolResult × ToolResult} (hrun : run.Documented)
    (h : Stage run events (.pure result)) :
    ∃ output sprints, ⟨run.createCall, .ok output⟩ ∈ events ∧
      ⟨.getWorkspaceSprints run.workspaceId, .ok sprints⟩ ∈ events ∧
        ((latestPlanned sprints).getD "" ≠ "" → ∃ workspaceId sprintId payload r,
          ⟨.addSprintWorkItems workspaceId sprintId payload, r⟩ ∈ events) := by
  generalize hq : (Program.pure result : SprintProgram (ToolResult × ToolResult)) = q at h
  cases h with
  | start =>
      rw [program_eq hrun] at hq
      cases hq
  | created output => cases hq
  | listed output sprints =>
      refine ⟨output, sprints, by simp, by simp, fun hid => ?_⟩
      rw [mapInto, if_neg hid] at hq
      cases hq
  | @added output sprints sprintId answer result hlatest hid =>
      exact ⟨output, sprints, List.mem_cons_self, List.mem_cons_of_mem _ List.mem_cons_self,
        fun _ => ⟨_, sprintId, _, .ok answer,
          List.mem_cons_of_mem _ (List.mem_cons_of_mem _ List.mem_cons_self)⟩⟩

/-- The first call creates the sprint. -/
theorem Stage.head?_eq (h : Stage run events q)
    (hcreate : ⟨.createSprint workspaceId payload, .ok output⟩ ∈ events) :
    events.head? = some ⟨.createSprint workspaceId payload, .ok output⟩ := by
  cases h with
  | start => cases hcreate
  | created => simpa [eq_comm] using hcreate
  | listed => simpa [eq_comm] using hcreate
  | added => simpa [addCall, eq_comm] using hcreate

/-- The second call lists the sprints. -/
theorem Stage.second_eq (h : Stage run events q)
    (hlist : ⟨.getWorkspaceSprints workspaceId, .ok sprints⟩ ∈ events) :
    events[1]? = some ⟨.getWorkspaceSprints workspaceId, .ok sprints⟩ := by
  cases h with
  | start => cases hlist
  | created => simp [createCall] at hlist
  | listed => simpa [createCall, eq_comm] using hlist
  | added => simpa [createCall, addCall, eq_comm] using hlist

end Added

end SprintRun

end Runs

section Interleaved

variable {ι : Type} [DecidableEq ι]

/-- The calls of a schedule. -/
abbrev SprintHistory (ι : Type) : Type :=
  List (ι × Event SprintCall SprintCall.Answer Exc)

/-- What run `i` adds goes to the sprint that it created. -/
def AddsToOwn (h : SprintHistory ι) (i : ι) : Prop :=
  ∀ workspaceId sprintId payload answer,
    (i, ⟨.addSprintWorkItems workspaceId sprintId payload, answer⟩) ∈ h →
      ∃ payload' output, (i, ⟨.createSprint workspaceId payload', .ok output⟩) ∈ h ∧
        sprintIdOf (.obj output) = some sprintId

/-- Run `i` adds its items, to its own sprint. -/
def LandsInOwn (h : SprintHistory ι) (i : ι) : Prop :=
  AddsToOwn h i ∧ ∃ workspaceId sprintId payload answer,
    (i, ⟨.addSprintWorkItems workspaceId sprintId payload, answer⟩) ∈ h

/-- When a run lists the sprints of the workspace, its own is the newest planned one. -/
def NewestWhenListed (h : SprintHistory ι) : Prop :=
  ∀ i workspaceId payload output sprints,
    (i, ⟨.createSprint workspaceId payload, .ok output⟩) ∈ h →
      (i, ⟨.getWorkspaceSprints workspaceId, .ok sprints⟩) ∈ h →
        NewestPlanned (.obj output) sprints

/-- A record is in the list, and no other one has its id. -/
def OwnIn (output : Fields) (sprints : List Json) : Prop :=
  .obj output ∈ sprints ∧ ∃ sprintId, sprintId ≠ "" ∧
    sprintIdOf (.obj output) = some sprintId ∧
      ∀ sprint ∈ sprints, sprintIdOf sprint = some sprintId → sprint = .obj output

variable (api : SprintApi) (runs : ι → SprintRun) (server : SprintServer)

/-- The runs before their first call. -/
def sprintPool : Pool ι SprintCall SprintCall.Answer Exc (ToolResult × ToolResult) SprintServer :=
  { program := fun i => (runs i).program, state := server }

/-- What holds of the calls so far and the sprints stored: every call was answered, ids to
come are new, and a created sprint is stored, and was listed to its run, under its own id. -/
structure SprintsKept (h : SprintHistory ι)
    (now : Pool ι SprintCall SprintCall.Answer Exc (ToolResult × ToolResult) SprintServer) :
    Prop where
  answered : ∀ x ∈ h, ∃ answer, x.2.2 = .ok answer
  fresh : ∀ n, now.state.created ≤ n → ∀ workspaceId, ∀ sprint ∈ now.state.sprints workspaceId,
    sprintIdOf sprint ≠ some (api.sprintId n)
  stored : ∀ i workspaceId payload output,
    (i, ⟨.createSprint workspaceId payload, .ok output⟩) ∈ h →
      OwnIn output (now.state.sprints workspaceId)
  listed : ∀ i workspaceId payload output sprints,
    (i, ⟨.createSprint workspaceId payload, .ok output⟩) ∈ h →
      (i, ⟨.getWorkspaceSprints workspaceId, .ok sprints⟩) ∈ h → OwnIn output sprints

variable {api runs server}

theorem OwnIn.of_mem_iff {output : Fields} {sprints sprints' : List Json}
    (hmem : ∀ sprint, sprint ∈ sprints' ↔ sprint ∈ sprints) (h : OwnIn output sprints) :
    OwnIn output sprints' := by
  obtain ⟨hown, sprintId, hne, hid, hunique⟩ := h
  exact ⟨(hmem _).2 hown, sprintId, hne, hid, fun sprint hsprint =>
    hunique sprint ((hmem sprint).1 hsprint)⟩

/-- A further sprint with a new id leaves the others apart. -/
theorem OwnIn.append {output : Fields} {sprints : List Json} {sprint : Json}
    (h : OwnIn output sprints) (hnew : ∀ other ∈ sprints, sprintIdOf other ≠ sprintIdOf sprint) :
    OwnIn output (sprints ++ [sprint]) := by
  obtain ⟨hown, sprintId, hne, hid, hunique⟩ := h
  refine ⟨List.mem_append_left _ hown, sprintId, hne, hid, fun other hother hsame => ?_⟩
  rcases List.mem_append.1 hother with hother | hother
  · exact hunique other hother hsame
  · rw [List.mem_singleton.1 hother] at hsame
    exact absurd (hid.trans hsame.symm) (hnew _ hown)

section Step

variable {h : SprintHistory ι}
  {now : Pool ι SprintCall SprintCall.Answer Exc (ToolResult × ToolResult) SprintServer}

omit [DecidableEq ι] in
theorem mem_snoc_iff {x y : ι × Event SprintCall SprintCall.Answer Exc} :
    x ∈ h ++ [y] ↔ x ∈ h ∨ x = y := by
  rw [List.mem_append, List.mem_singleton]

theorem SprintsKept.create (hkept : SprintsKept api h now) (hstores : api.Stores server) {i : ι}
    (hfirst : Pool.eventsOf i h = []) (workspaceId : String) (payload : Fields)
    (program : ι → SprintProgram (ToolResult × ToolResult)) :
    SprintsKept api
      (h ++ [(i, ⟨.createSprint workspaceId payload,
        (api.sem (.createSprint workspaceId payload) now.state).1⟩)])
      { program := program
        state := (api.sem (.createSprint workspaceId payload) now.state).2 } := by
  have hrecord : sprintIdOf (.obj (api.record now.state.created payload)) =
      some (api.sprintId now.state.created) := sprintIdOf_record (hstores.nonempty _)
  have hnew : ∀ ws, ∀ other ∈ now.state.sprints ws,
      sprintIdOf other ≠ sprintIdOf (.obj (api.record now.state.created payload)) := by
    intro ws other hother
    rw [hrecord]
    exact hkept.fresh _ (Nat.le_refl _) ws other hother
  constructor
  · intro x hx
    rcases mem_snoc_iff.1 hx with hx | rfl
    · exact hkept.answered x hx
    · exact ⟨_, rfl⟩
  · intro n hn ws sprint hsprint
    change now.state.created + 1 ≤ n at hn
    change sprint ∈ update now.state.sprints workspaceId _ ws at hsprint
    by_cases hws : ws = workspaceId
    · subst hws
      rw [Function.update_self] at hsprint
      rcases List.mem_append.1 hsprint with hsprint | hsprint
      · exact hkept.fresh n (by omega) ws sprint hsprint
      · rw [List.mem_singleton.1 hsprint, hrecord]
        intro heq
        have hsame := hstores.injective (Option.some.inj heq)
        omega
    · rw [Function.update_of_ne hws] at hsprint
      exact hkept.fresh n (by omega) ws sprint hsprint
  · intro j ws payload' output hx
    change OwnIn output (update now.state.sprints workspaceId _ ws)
    rcases mem_snoc_iff.1 hx with hx | hx
    · have hown := hkept.stored j ws payload' output hx
      by_cases hws : ws = workspaceId
      · subst hws
        rw [Function.update_self]
        exact hown.append (hnew ws)
      · rw [Function.update_of_ne hws]
        exact hown
    · obtain ⟨rfl, hevent⟩ := Prod.mk.inj hx
      cases hevent
      rw [Function.update_self]
      refine ⟨by simp, _, hstores.nonempty _, hrecord, fun sprint hsprint hsame => ?_⟩
      rcases List.mem_append.1 hsprint with hsprint | hsprint
      · exact absurd (hsame.trans hrecord.symm) (hnew workspaceId sprint hsprint)
      · exact List.mem_singleton.1 hsprint
  · intro j ws payload' output sprints hcreate hlist
    have hlisted : (j, ⟨.getWorkspaceSprints ws, .ok sprints⟩) ∈ h := by
      rcases mem_snoc_iff.1 hlist with hlist | hlist
      · exact hlist
      · cases hlist
    rcases mem_snoc_iff.1 hcreate with hcreate | hcreate
    · exact hkept.listed j ws payload' output sprints hcreate hlisted
    · obtain ⟨rfl, -⟩ := Prod.mk.inj hcreate
      rw [← Pool.mem_eventsOf, hfirst] at hlisted
      cases hlisted

omit [DecidableEq ι] in
theorem SprintsKept.list (hkept : SprintsKept api h now) (hstores : api.Stores server) (i : ι)
    (workspaceId : String) (program : ι → SprintProgram (ToolResult × ToolResult)) :
    SprintsKept api
      (h ++ [(i, ⟨.getWorkspaceSprints workspaceId,
        (api.sem (.getWorkspaceSprints workspaceId) now.state).1⟩)])
      { program := program, state := now.state } := by
  have hcreated : ∀ {j ws payload output},
      (j, ⟨.createSprint ws payload, .ok output⟩) ∈ h ++ [(i, ⟨.getWorkspaceSprints workspaceId,
        (api.sem (.getWorkspaceSprints workspaceId) now.state).1⟩)] →
        (j, ⟨.createSprint ws payload, .ok output⟩) ∈ h := by
    intro j ws payload output hx
    rcases mem_snoc_iff.1 hx with hx | hx
    · exact hx
    · cases hx
  constructor
  · intro x hx
    rcases mem_snoc_iff.1 hx with hx | rfl
    · exact hkept.answered x hx
    · exact ⟨_, rfl⟩
  · exact hkept.fresh
  · exact fun j ws payload output hx => hkept.stored j ws payload output (hcreated hx)
  · intro j ws payload output sprints hcreate hlist
    rcases mem_snoc_iff.1 hlist with hlist | hlist
    · exact hkept.listed j ws payload output sprints (hcreated hcreate) hlist
    · obtain ⟨rfl, hevent⟩ := Prod.mk.inj hlist
      cases hevent
      exact (hkept.stored j workspaceId payload output (hcreated hcreate)).of_mem_iff
        (hstores.listing _)

omit [DecidableEq ι] in
theorem SprintsKept.add (hkept : SprintsKept api h now) (i : ι)
    (workspaceId sprintId : String) (payload : Fields)
    (program : ι → SprintProgram (ToolResult × ToolResult)) :
    SprintsKept api (h ++ [(i, ⟨.addSprintWorkItems workspaceId sprintId payload, .ok []⟩)])
      { program := program, state := now.state } := by
  have hothers : ∀ {j} {event : Event SprintCall SprintCall.Answer Exc},
      (∀ ws id p, event.1 ≠ .addSprintWorkItems ws id p) →
        (j, event) ∈ h ++ [(i, ⟨.addSprintWorkItems workspaceId sprintId payload, .ok []⟩)] →
          (j, event) ∈ h := by
    intro j event hkind hx
    rcases mem_snoc_iff.1 hx with hx | hx
    · exact hx
    · rw [(Prod.mk.inj hx).2] at hkind
      exact absurd rfl (hkind _ _ _)
  constructor
  · intro x hx
    rcases mem_snoc_iff.1 hx with hx | rfl
    · exact hkept.answered x hx
    · exact ⟨_, rfl⟩
  · exact hkept.fresh
  · exact fun j ws payload output hx =>
      hkept.stored j ws payload output (hothers (by simp) hx)
  · exact fun j ws payload output sprints hcreate hlist =>
      hkept.listed j ws payload output sprints (hothers (by simp) hcreate)
        (hothers (by simp) hlist)

end Step

/-- What a schedule leads to: the invariant, and where each run stands. -/
theorem sprints_run (hruns : ∀ i, (runs i).Documented) (hstores : api.Stores server)
    (schedule : List ι) :
    SprintsKept api (Pool.history api.sem (sprintPool runs server) schedule)
        ((sprintPool runs server).run api.sem schedule) ∧
      ∀ i, (runs i).Stage (Pool.eventsOf i (Pool.history api.sem (sprintPool runs server)
          schedule)) (((sprintPool runs server).run api.sem schedule).program i) := by
  have hstage : ∀ {h : SprintHistory ι} {now : Pool ι SprintCall SprintCall.Answer Exc
      (ToolResult × ToolResult) SprintServer}, SprintsKept api h now → ∀ {j},
      ((sprintPool runs server).program j).Continues (Pool.eventsOf j h) (now.program j) →
        (runs j).Stage (Pool.eventsOf j h) (now.program j) := by
    intro h now hkept j hcontinues
    refine SprintRun.stage_of_continues (hruns j) (fun event hevent => ?_) hcontinues
    exact hkept.answered (j, event) (Pool.mem_eventsOf.1 hevent)
  suffices hall : SprintsKept api (Pool.history api.sem (sprintPool runs server) schedule)
        ((sprintPool runs server).run api.sem schedule) ∧
      ∀ i, ((sprintPool runs server).program i).Continues (Pool.eventsOf i (Pool.history api.sem
        (sprintPool runs server) schedule)) (((sprintPool runs server).run api.sem
          schedule).program i) from
    ⟨hall.1, fun i => hstage hall.1 (hall.2 i)⟩
  refine Pool.history_invariant (fun h now i e k hcontinues hcall hkept => ?_) ?_ schedule
  · cases e with
    | createSprint workspaceId payload =>
        have hcurrent := hstage hkept (hcontinues i)
        rw [hcall] at hcurrent
        exact hkept.create hstores hcurrent.events_eq_nil workspaceId payload _
    | getWorkspaceSprints workspaceId => exact hkept.list hstores i workspaceId _
    | addSprintWorkItems workspaceId sprintId payload =>
        exact hkept.add i workspaceId sprintId payload _
  · constructor
    · simp
    · exact fun n _ ws sprint hsprint => hstores.fresh n ws sprint hsprint
    · simp
    · simp

/-- In every order of the calls, what the runs add goes to the sprints they created if each
run's sprint is the newest planned one when the run lists the sprints. Once all runs have
ended, each has added its items to its own sprint if and only if that was so. -/
theorem items_land_in_own_sprint_iff (hruns : ∀ i, (runs i).Documented)
    (hstores : api.Stores server) (schedule : List ι) :
    (NewestWhenListed (Pool.history api.sem (sprintPool runs server) schedule) →
      ∀ i, AddsToOwn (Pool.history api.sem (sprintPool runs server) schedule) i) ∧
    ((∀ i, ∃ result, ((sprintPool runs server).run api.sem schedule).program i = .pure result) →
      ((∀ i, LandsInOwn (Pool.history api.sem (sprintPool runs server) schedule) i) ↔
        NewestWhenListed (Pool.history api.sem (sprintPool runs server) schedule))) := by
  obtain ⟨hkept, hstages⟩ := sprints_run hruns hstores schedule
  revert hkept hstages
  generalize Pool.history api.sem (sprintPool runs server) schedule = h
  generalize (sprintPool runs server).run api.sem schedule = now
  intro hkept hstages
  -- an item is added to the looked up sprint, which is the run's own where that is the newest
  have hown : NewestWhenListed h → ∀ i, AddsToOwn h i := by
    intro hnewest i workspaceId sprintId payload answer hadd
    obtain ⟨rfl, output, sprints, hcreate, hlist, hlatest⟩ :=
      (hstages i).exists_of_added (Pool.mem_eventsOf.2 hadd)
    rw [Pool.mem_eventsOf] at hcreate hlist
    obtain ⟨-, ownId, -, hid, hunique⟩ := hkept.listed i _ _ output sprints hcreate hlist
    have hfound := (latestPlanned_eq_own_iff hid hunique).2
      (hnewest i _ _ output sprints hcreate hlist)
    rw [Option.some.inj (hlatest.symm.trans hfound)]
    exact ⟨_, output, hcreate, hid⟩
  refine ⟨hown, fun hended => ⟨fun hlands => ?_, fun hnewest i => ⟨hown hnewest i, ?_⟩⟩⟩
  · intro i workspaceId payload output sprints hcreate hlist
    obtain ⟨hadds, ws, sprintId, items, answer, hadd⟩ := hlands i
    obtain ⟨-, _, sprints', -, hlist', hlatest⟩ :=
      (hstages i).exists_of_added (Pool.mem_eventsOf.2 hadd)
    obtain ⟨payload', output', hcreate', hid'⟩ := hadds ws sprintId items answer hadd
    have hsecond := ((hstages i).second_eq (Pool.mem_eventsOf.2 hlist)).symm.trans
      ((hstages i).second_eq hlist')
    have hfirst := ((hstages i).head?_eq (Pool.mem_eventsOf.2 hcreate)).symm.trans
      ((hstages i).head?_eq (Pool.mem_eventsOf.2 hcreate'))
    cases hsecond
    cases hfirst
    obtain ⟨-, ownId, -, hid, hunique⟩ := hkept.listed i _ _ output sprints hcreate hlist
    have hsame : ownId = sprintId := Option.some.inj (hid.symm.trans hid')
    rw [← hsame] at hlatest
    exact (latestPlanned_eq_own_iff hid hunique).1 hlatest
  · obtain ⟨result, hresult⟩ := hended i
    have hstage := hstages i
    rw [hresult] at hstage
    obtain ⟨output, sprints, hcreate, hlist, hadds⟩ := hstage.ended (hruns i)
    rw [Pool.mem_eventsOf] at hcreate hlist
    obtain ⟨-, ownId, hne, hid, hunique⟩ := hkept.listed i _ _ output sprints hcreate hlist
    have hfound := (latestPlanned_eq_own_iff hid hunique).2
      (hnewest i _ _ output sprints hcreate hlist)
    rw [hfound] at hadds
    obtain ⟨ws, sprintId, items, answer, hadd⟩ := hadds hne
    exact ⟨ws, sprintId, items, answer, Pool.mem_eventsOf.1 hadd⟩

end Interleaved

section Sample

/-- An API that names the sprints by `ids` and dates them all alike but for the last digit. -/
def sampleSprintApi : SprintApi :=
  { sprintId := fun n => "sprint-" ++ toString n
    createdAt := fun n => "2026-06-0" ++ toString n
    listing := id }

def sampleSprintRun : SprintRun :=
  { dates := { start := "2026-06-01T00:00:00Z", finish := "2026-06-15T00:00:00Z" }
    context := { workspaceId := "ws", projectId := none, sourceEvent := sampleSprintSource
                 workflowId := "sprint.plan" }
    create :=
      { actionId := "create", planId := "run", actionType := "mutation"
        toolName := "create_sprint", instruction := "", idempotencyKey := "a" }
    add :=
      { actionId := "add", planId := "run", actionType := "mutation"
        toolName := "add_sprint_work_items", instruction := "", idempotencyKey := "b"
        input := [("itemIds", .arr [.str "00000000-0000-0000-0000-000000000001"])] }
    createdId := "created"
    addedId := "added" }
where
  sampleSprintSource : EventEnvelope :=
    .wrap { kind := .domain, eventId := "event", eventType := "manual.plan_sprint"
            workspaceId := "ws" }

theorem sampleSprintRun_documented : sampleSprintRun.Documented where
  workspace := rfl
  noSprint := rfl
  items := by decide

/-- The two runs before their first call, in a workspace without sprints. -/
def sampleSprintPool :
    Pool Bool SprintCall SprintCall.Answer Exc (ToolResult × ToolResult) SprintServer :=
  sprintPool (fun _ => sampleSprintRun) { sprints := fun _ => [] }

def sampleSprintPayload : Fields := createSprintPayload sampleSprintRun.dates []

def sampleSprint (n : ℕ) : Fields := sampleSprintApi.record n sampleSprintPayload

theorem sampleSprintPool_eq : sampleSprintPool =
    { program := fun _ => .call sampleSprintRun.createCall sampleSprintRun.afterCreate
      state := { sprints := fun _ => [] } } :=
  congrArg (fun p : SprintProgram (ToolResult × ToolResult) =>
    ({ program := fun _ => p, state := { sprints := fun _ => [] } } :
      Pool Bool SprintCall SprintCall.Answer Exc (ToolResult × ToolResult) SprintServer))
    (SprintRun.program_eq sampleSprintRun_documented)

theorem sampleSprintApi_stores : sampleSprintApi.Stores { sprints := fun _ => [] } where
  nonempty n h := by
    have hlength := congrArg String.length h
    simp [sampleSprintApi] at hlength
  injective m n h := by
    have hlist := congrArg String.toList h
    simp only [sampleSprintApi, String.toList_append, List.append_cancel_left_eq] at hlist
    exact Joined.toString_inj (String.toList_injective hlist)
  fresh := by simp
  listing _ _ := Iff.rfl

def sampleItemsPayload : Fields :=
  AddSprintWorkItemsTool.addPayload sampleSprintRun.itemIds none

/-- A run that looks up a sprint adds its items to it. -/
theorem event?_mapInto {pool : Pool Bool SprintCall SprintCall.Answer Exc
    (ToolResult × ToolResult) SprintServer} {i : Bool} {sprintId : String}
    {f : ToolResult → SprintProgram (ToolResult × ToolResult)}
    (h : pool.program i = (sampleSprintRun.mapInto sprintId).bind f) (hid : sprintId ≠ "") :
    Pool.event? sampleSprintApi.sem pool i =
      [(i, ⟨.addSprintWorkItems "ws" sprintId sampleItemsPayload, .ok []⟩)] := by
  rw [SprintRun.mapInto, if_neg hid] at h
  exact Pool.event?_of_call h

/-- The other run creates a sprint before the first run lists the sprints: the first run's
items go to it. -/
theorem other_sprint_taken :
    ¬ ∀ schedule i, AddsToOwn (Pool.history sampleSprintApi.sem sampleSprintPool schedule) i := by
  intro h
  have hlatest :
      latestPlanned [.obj (sampleSprint 0), .obj (sampleSprint 1)] = some "sprint-1" := by
    rw [latestPlanned_eq_some_iff]
    exact ⟨.obj (sampleSprint 1),
      ⟨[.obj (sampleSprint 0)], [], rfl, by decide +kernel, by simp⟩, rfl⟩
  have hbefore : Pool.history sampleSprintApi.sem sampleSprintPool [false, true, false] =
      [(false, ⟨.createSprint "ws" sampleSprintPayload, .ok (sampleSprint 0)⟩),
        (true, ⟨.createSprint "ws" sampleSprintPayload, .ok (sampleSprint 1)⟩),
        (false, ⟨.getWorkspaceSprints "ws",
          .ok [.obj (sampleSprint 0), .obj (sampleSprint 1)]⟩)] := by
    rw [sampleSprintPool_eq]
    rfl
  have hprogram : (sampleSprintPool.run sampleSprintApi.sem [false, true, false]).program false =
      (sampleSprintRun.mapInto ((latestPlanned [.obj (sampleSprint 0),
        .obj (sampleSprint 1)]).getD "")).bind fun added =>
          .pure (sampleSprintRun.createdResult (sampleSprint 0), added) := by
    rw [sampleSprintPool_eq]
    rfl
  rw [hlatest] at hprogram
  change _ = (sampleSprintRun.mapInto "sprint-1").bind _ at hprogram
  have hhistory : Pool.history sampleSprintApi.sem sampleSprintPool [false, true, false, false] =
      Pool.history sampleSprintApi.sem sampleSprintPool [false, true, false] ++
        [(false, ⟨.addSprintWorkItems "ws" "sprint-1" sampleItemsPayload, .ok []⟩)] := by
    have hlast := event?_mapInto hprogram (by decide)
    rw [← hlast]
    exact (Pool.history_append [false, true, false] [false]).trans
      (congrArg _ (List.append_nil _))
  rw [hbefore] at hhistory
  have hown := h [false, true, false, false] false
  rw [hhistory] at hown
  obtain ⟨payload, output, hcreate, hid⟩ :=
    hown "ws" "sprint-1" sampleItemsPayload (.ok []) (by simp)
  have houtput : output = sampleSprint 0 := by
    simp at hcreate
    exact hcreate.2
  rw [houtput] at hid
  exact absurd hid (by decide)

/-- A run that makes its three calls without another call in between lists the sprints with
its own at the end, and has ended. -/
theorem run_apart {pool : Pool Bool SprintCall SprintCall.Answer Exc (ToolResult × ToolResult)
      SprintServer} {i : Bool} {sprintId : String}
    (h : pool.program i = .call sampleSprintRun.createCall sampleSprintRun.afterCreate)
    (hlatest : latestPlanned (pool.state.sprints "ws" ++
      [.obj (sampleSprint pool.state.created)]) = some sprintId) (hid : sprintId ≠ "") :
    Pool.history sampleSprintApi.sem pool [i, i, i] =
        [(i, ⟨.createSprint "ws" sampleSprintPayload, .ok (sampleSprint pool.state.created)⟩),
          (i, ⟨.getWorkspaceSprints "ws", .ok (pool.state.sprints "ws" ++
            [.obj (sampleSprint pool.state.created)])⟩),
          (i, ⟨.addSprintWorkItems "ws" sprintId sampleItemsPayload, .ok []⟩)] ∧
      ∃ result, pool.run sampleSprintApi.sem [i, i, i] =
        { program := update pool.program i (.pure result)
          state :=
            { sprints := update pool.state.sprints "ws" (pool.state.sprints "ws" ++
                [.obj (sampleSprint pool.state.created)])
              created := pool.state.created + 1 } } := by
  generalize hlisted : pool.state.sprints "ws" ++ [.obj (sampleSprint pool.state.created)] =
    sprints at hlatest
  generalize houtput : sampleSprint pool.state.created = output at hlisted
  -- the pool after the creation, and after the sprints have been listed
  let created : Pool Bool SprintCall SprintCall.Answer Exc (ToolResult × ToolResult)
      SprintServer :=
    { program := update pool.program i (sampleSprintRun.afterCreate (.ok output))
      state :=
        { sprints := update pool.state.sprints "ws" sprints
          created := pool.state.created + 1 } }
  let listed : Pool Bool SprintCall SprintCall.Answer Exc (ToolResult × ToolResult)
      SprintServer :=
    { created with
      program := update pool.program i ((sampleSprintRun.mapInto sprintId).bind fun added =>
        .pure (sampleSprintRun.createdResult output, added)) }
  have hcreate : pool.step sampleSprintApi.sem i = created := by
    rw [Pool.step_of_call h]
    subst hlisted houtput
    rfl
  have hcreated : created.program i = sampleSprintRun.afterCreate (.ok output) :=
    Function.update_self ..
  have hlist : created.step sampleSprintApi.sem i = listed := by
    have hstate : (update pool.state.sprints "ws" sprints) "ws" = sprints :=
      Function.update_self ..
    have hanswer : ∀ answer : List Json, answer = sprints →
        (sampleSprintRun.mapInto ((latestPlanned answer).getD "")).bind (fun added =>
          .pure (sampleSprintRun.createdResult output, added)) =
        (sampleSprintRun.mapInto sprintId).bind fun added =>
          Program.pure (sampleSprintRun.createdResult output, added) := by
      rintro answer rfl
      rw [hlatest]
      rfl
    rw [Pool.step_of_call hcreated]
    refine congrArg (fun program => (⟨program, created.state⟩ : Pool Bool SprintCall
      SprintCall.Answer Exc (ToolResult × ToolResult) SprintServer)) ?_
    change update (update pool.program i _) i _ = _
    rw [Function.update_idem]
    exact congrArg (update pool.program i) (hanswer _ hstate)
  have hlistedProgram : listed.program i = (sampleSprintRun.mapInto sprintId).bind fun added =>
      Program.pure (sampleSprintRun.createdResult output, added) := Function.update_self ..
  have hadd : Pool.event? sampleSprintApi.sem listed i = _ := event?_mapInto hlistedProgram hid
  rw [SprintRun.mapInto, if_neg hid] at hlistedProgram
  have hlast : listed.step sampleSprintApi.sem i = _ := Pool.step_of_call hlistedProgram
  have hanswered : (sampleSprintApi.sem (.getWorkspaceSprints sampleSprintRun.workspaceId)
      created.state).1 = .ok sprints := by
    have hstate : (update pool.state.sprints "ws" sprints) "ws" = sprints :=
      Function.update_self ..
    exact congrArg Except.ok hstate
  refine ⟨?_, ?_⟩
  · rw [Pool.history, Pool.history, Pool.history, Pool.history, Pool.event?_of_call h, hcreate,
      Pool.event?_of_call hcreated, hlist, hadd, hanswered]
    subst houtput
    rfl
  · change ∃ result, ((pool.step sampleSprintApi.sem i).step sampleSprintApi.sem i).step
      sampleSprintApi.sem i = _
    rw [hcreate, hlist, hlast]
    refine ⟨(sampleSprintRun.createdResult output,
      AddSprintWorkItemsTool.added sampleSprintRun.addedId sampleSprintRun.add sprintId
        sampleSprintRun.itemIds), ?_⟩
    subst hlisted houtput
    refine congrArg (fun program => (⟨program, created.state⟩ : Pool Bool SprintCall
      SprintCall.Answer Exc (ToolResult × ToolResult) SprintServer)) ?_
    exact Function.update_idem ..

theorem newest_last (before : List Json) (n : ℕ)
    (h : ∀ sprint ∈ before.filter isPlannedSprint,
      sprintText sprint "createdAt" < sampleSprintApi.createdAt n) :
    NewestPlanned (.obj (sampleSprint n)) (before ++ [.obj (sampleSprint n)]) :=
  ⟨before.filter isPlannedSprint, [], List.filter_append before _, h, List.forall_mem_nil _⟩

/-- Two runs after each other map their items into their own sprints, although the first
sprint is still planned when the second run lists the sprints. -/
theorem items_land_in_own_sprint_sample :
    LandsInOwn (Pool.history sampleSprintApi.sem sampleSprintPool
        [false, false, false, true, true, true]) false ∧
      LandsInOwn (Pool.history sampleSprintApi.sem sampleSprintPool
        [false, false, false, true, true, true]) true := by
  have hnewest : NewestPlanned (.obj (sampleSprint 0)) [.obj (sampleSprint 0)] :=
    newest_last [] 0 (by simp)
  have hnewest' : NewestPlanned (.obj (sampleSprint 1))
      [.obj (sampleSprint 0), .obj (sampleSprint 1)] :=
    newest_last [.obj (sampleSprint 0)] 1 (by decide +kernel)
  obtain ⟨hfirst, result, hrun⟩ := @run_apart sampleSprintPool false "sprint-0"
    (by rw [sampleSprintPool_eq]) (latestPlanned_eq_some_iff.2 ⟨_, hnewest, rfl⟩) (by decide)
  generalize hafter : sampleSprintPool.run sampleSprintApi.sem [false, false, false] = after
    at hrun
  obtain ⟨hsecond, result', hrun'⟩ := @run_apart after true "sprint-1"
    (by rw [hrun, sampleSprintPool_eq]; rfl)
    (by rw [hrun, sampleSprintPool_eq]; exact latestPlanned_eq_some_iff.2 ⟨_, hnewest', rfl⟩)
    (by decide)
  have hhistory : Pool.history sampleSprintApi.sem sampleSprintPool
      [false, false, false, true, true, true] = _ ++ _ :=
    Pool.history_append [false, false, false] [true, true, true]
  have hended : ∀ i, ∃ ended, (sampleSprintPool.run sampleSprintApi.sem
      [false, false, false, true, true, true]).program i = .pure ended := by
    have hlast : sampleSprintPool.run sampleSprintApi.sem
        [false, false, false, true, true, true] =
          after.run sampleSprintApi.sem [true, true, true] := by
      rw [← hafter]
      rfl
    rw [hlast, hrun', hrun]
    intro i
    cases i with
    | false => exact ⟨result, rfl⟩
    | true => exact ⟨result', rfl⟩
  have hlands := (items_land_in_own_sprint_iff (fun _ => sampleSprintRun_documented)
    sampleSprintApi_stores [false, false, false, true, true, true]).2 hended
  suffices hlisted : NewestWhenListed (Pool.history sampleSprintApi.sem sampleSprintPool
      [false, false, false, true, true, true]) from
    ⟨hlands.2 hlisted false, hlands.2 hlisted true⟩
  rw [hhistory, hafter, hfirst, hsecond, hrun, sampleSprintPool_eq]
  intro i workspaceId payload output sprints hcreate hlist
  cases i with
  | false =>
      simp at hcreate hlist
      rw [hcreate.2, hlist.2]
      exact hnewest
  | true =>
      simp at hcreate hlist
      rw [hcreate.2, hlist.2]
      exact hnewest'

end Sample

end PrismAgent
