import PrismAgent.Application.Frame
import PrismAgent.Effect.Tenants

/-!
# Workspaces over one store

Calls on one in-memory store, each issued on behalf of a workspace. Plans, task graphs,
sub-agent results and snapshots are filed under the workspace; action results and
idempotency keys are not. A workspace reads what it would read alone if and only if the
reads of those two tables find nothing that another workspace has put there.
-/

namespace PrismAgent

open Effect

/-- The workspace that a call of the state store names. -/
def Call.workspace : Call → Option String
  | .getPlan workspaceId _ | .getTaskGraph workspaceId _ | .claimReadyNodes workspaceId _
  | .advanceTaskGraph workspaceId _ _ _ | .saveSubAgentResult workspaceId _ _
  | .getSubAgentResults workspaceId _ | .getContextSnapshot workspaceId _ => some workspaceId
  | .savePlan plan | .updatePlan plan => some plan.workspaceId
  | .saveTaskGraph graph => some graph.workspaceId
  | .saveContextSnapshot snapshot => some snapshot.workspaceId
  | _ => none

/-- The calls that read the state store. -/
def Call.readsStore : Call → Bool
  | .getPlan _ _ | .getTaskGraph _ _ | .claimReadyNodes _ _ | .advanceTaskGraph _ _ _ _
  | .getSubAgentResults _ _ | .getContextSnapshot _ _ | .getActionResult _ _
  | .checkIdempotencyKey _ => true
  | _ => false

/-- A workspace issues calls that name no other workspace. -/
def Issues (workspaceId : String) (call : Call) : Prop :=
  ∀ named, call.workspace = some named → named = workspaceId

/-- A workspace and a call that it issues. -/
abbrev WorkspaceCall := String × Call

/-- Every task graph is filed under its own workspace. -/
def Filed (w : World MemoryStateStore) : Prop :=
  ∀ workspaceId planId graph, w.store.taskGraphs (workspaceId, planId) = some graph →
    graph.workspaceId = workspaceId

/-- Two worlds hold the same under a workspace. -/
structure SameFor (workspaceId : String) (w w' : World MemoryStateStore) : Prop where
  plans : ∀ planId, w.store.plans (workspaceId, planId) = w'.store.plans (workspaceId, planId)
  taskGraphs : ∀ planId,
    w.store.taskGraphs (workspaceId, planId) = w'.store.taskGraphs (workspaceId, planId)
  subAgentResults : ∀ runId,
    w.store.subAgentResults (workspaceId, runId) = w'.store.subAgentResults (workspaceId, runId)
  contextSnapshots : ∀ snapshotId, w.store.contextSnapshots (workspaceId, snapshotId) =
    w'.store.contextSnapshots (workspaceId, snapshotId)

section Unwinding

variable (env : Env) {workspaceId : String} {w w' : World MemoryStateStore}

/-- What a call does to the world. -/
def nextWorld (call : Call) (w : World MemoryStateStore) : World MemoryStateStore :=
  (env.sem call w).2

theorem SameFor.refl (workspaceId : String) (w : World MemoryStateStore) :
    SameFor workspaceId w w :=
  ⟨fun _ => rfl, fun _ => rfl, fun _ => rfl, fun _ => rfl⟩

theorem SameFor.trans {w'' : World MemoryStateStore} (h : SameFor workspaceId w w')
    (h' : SameFor workspaceId w' w'') : SameFor workspaceId w w'' :=
  ⟨fun id => (h.plans id).trans (h'.plans id),
    fun id => (h.taskGraphs id).trans (h'.taskGraphs id),
    fun id => (h.subAgentResults id).trans (h'.subAgentResults id),
    fun id => (h.contextSnapshots id).trans (h'.contextSnapshots id)⟩

theorem filed_saveTaskGraph {store : MemoryStateStore} {graph : TaskGraph}
    (h : ∀ workspaceId planId g, store.taskGraphs (workspaceId, planId) = some g →
      g.workspaceId = workspaceId) (workspaceId planId : String) (g : TaskGraph)
    (hg : (store.saveTaskGraph graph).taskGraphs (workspaceId, planId) = some g) :
    g.workspaceId = workspaceId := by
  change Function.update store.taskGraphs _ _ _ = _ at hg
  rw [Function.update_apply] at hg
  split at hg
  next heq =>
    obtain rfl := Option.some.inj hg
    exact (Prod.mk.inj heq).1.symm
  next => exact h _ _ _ hg

theorem filed_nextWorld {call : Call} (h : Filed w) : Filed (nextWorld env call w) := by
  intro workspaceId planId graph hgraph
  by_cases hwrites : call.writes = some .taskGraphs
  · cases call with
    | saveTaskGraph saved => exact filed_saveTaskGraph h _ _ _ hgraph
    | claimReadyNodes named runId =>
        simp only [nextWorld, Env.sem, StateStore.claimReadyNodes,
          MemoryStateStore.claimReadyNodes] at hgraph
        split at hgraph
        · exact h _ _ _ hgraph
        · exact filed_saveTaskGraph h _ _ _ hgraph
    | advanceTaskGraph named runId nodeId status =>
        simp only [nextWorld, Env.sem, StateStore.advanceTaskGraph,
          MemoryStateStore.advanceTaskGraph] at hgraph
        split at hgraph
        · exact h _ _ _ hgraph
        · exact filed_saveTaskGraph h _ _ _ hgraph
    | _ => simp [Call.writes] at hwrites
  · have hsame : (nextWorld env call w).store.taskGraphs = w.store.taskGraphs :=
      sem_same env (w := w) hwrites
    rw [hsame] at hgraph
    exact h _ _ _ hgraph

/-- Filing a task graph changes nothing under other workspaces. -/
theorem sameFor_saveTaskGraph {graph : TaskGraph} (h : graph.workspaceId ≠ workspaceId)
    (tick : ℕ) :
    SameFor workspaceId { w with store := w.store.saveTaskGraph graph, tick := tick } w := by
  refine ⟨fun _ => rfl, fun planId => ?_, fun _ => rfl, fun _ => rfl⟩
  exact Function.update_of_ne (fun heq => h (Prod.mk.inj heq).1.symm) _ _

/-- A call leaves what is filed under a workspace that it does not name. -/
theorem sameFor_nextWorld {call : Call} (hfiled : Filed w)
    (hcall : call.workspace ≠ some workspaceId) :
    SameFor workspaceId (nextWorld env call w) w := by
  have hne : ∀ {named : String}, call.workspace = some named → named ≠ workspaceId := by
    rintro named hnamed rfl
    exact hcall hnamed
  cases call with
  | savePlan plan =>
      refine ⟨fun planId => ?_, fun _ => rfl, fun _ => rfl, fun _ => rfl⟩
      exact Function.update_of_ne (fun heq => hne rfl (Prod.mk.inj heq).1.symm) _ _
  | updatePlan plan =>
      refine ⟨fun planId => ?_, fun _ => rfl, fun _ => rfl, fun _ => rfl⟩
      exact Function.update_of_ne (fun heq => hne rfl (Prod.mk.inj heq).1.symm) _ _
  | saveTaskGraph graph => exact sameFor_saveTaskGraph (hne rfl) _
  | claimReadyNodes named runId =>
      simp only [nextWorld, Env.sem, StateStore.claimReadyNodes, MemoryStateStore.claimReadyNodes]
      split
      · exact ⟨fun _ => rfl, fun _ => rfl, fun _ => rfl, fun _ => rfl⟩
      next graph hgraph =>
        refine sameFor_saveTaskGraph ?_ _
        rw [(TaskGraph.claimReady_filing _).2.1, hfiled _ _ _ hgraph]
        exact hne rfl
  | advanceTaskGraph named runId nodeId status =>
      simp only [nextWorld, Env.sem, StateStore.advanceTaskGraph,
        MemoryStateStore.advanceTaskGraph]
      split
      · exact ⟨fun _ => rfl, fun _ => rfl, fun _ => rfl, fun _ => rfl⟩
      next graph hgraph =>
        refine sameFor_saveTaskGraph ?_ _
        rw [(TaskGraph.planAdvance_filing _ _ _).2.1, hfiled _ _ _ hgraph]
        exact hne rfl
  | saveSubAgentResult named runId result =>
      refine ⟨fun _ => rfl, fun _ => rfl, fun id => ?_, fun _ => rfl⟩
      exact Function.update_of_ne (fun heq => hne rfl (Prod.mk.inj heq).1.symm) _ _
  | saveContextSnapshot snapshot =>
      refine ⟨fun _ => rfl, fun _ => rfl, fun _ => rfl, fun id => ?_⟩
      exact Function.update_of_ne (fun heq => hne rfl (Prod.mk.inj heq).1.symm) _ _
  | _ => exact ⟨fun _ => rfl, fun _ => rfl, fun _ => rfl, fun _ => rfl⟩

/-- The same update of two tables that agree at a key. -/
theorem update_congr_at {κ ν : Type} [DecidableEq κ] {table table' : κ → ν} {key : κ}
    (h : table key = table' key) (at' : κ) {value value' : ν}
    (hvalue : at' = key → value = value') :
    Function.update table at' value key = Function.update table' at' value' key := by
  rw [Function.update_apply, Function.update_apply]
  split
  next heq => exact hvalue heq.symm
  next => exact h

theorem sameFor_saveTaskGraph_both {graph : TaskGraph} (h : SameFor workspaceId w w')
    (tick tick' : ℕ) :
    SameFor workspaceId { w with store := w.store.saveTaskGraph graph, tick := tick }
      { w' with store := w'.store.saveTaskGraph graph, tick := tick' } :=
  ⟨h.plans, fun id => update_congr_at (h.taskGraphs id) _ fun _ => rfl, h.subAgentResults,
    h.contextSnapshots⟩

/-- A call has the same effect under the workspace that issues it. -/
theorem SameFor.nextWorld {call : Call} (hcall : Issues workspaceId call)
    (h : SameFor workspaceId w w') :
    SameFor workspaceId (nextWorld env call w) (nextWorld env call w') := by
  cases call with
  | savePlan plan =>
      exact ⟨fun id => update_congr_at (h.plans id) _ fun _ => rfl, h.taskGraphs,
        h.subAgentResults, h.contextSnapshots⟩
  | updatePlan plan =>
      exact ⟨fun id => update_congr_at (h.plans id) _ fun _ => rfl, h.taskGraphs,
        h.subAgentResults, h.contextSnapshots⟩
  | saveTaskGraph graph => exact sameFor_saveTaskGraph_both h _ _
  | claimReadyNodes named runId =>
      obtain rfl := hcall named rfl
      simp only [PrismAgent.nextWorld, Env.sem, StateStore.claimReadyNodes,
        MemoryStateStore.claimReadyNodes, MemoryStateStore.getTaskGraph, h.taskGraphs]
      split
      · exact ⟨h.plans, h.taskGraphs, h.subAgentResults, h.contextSnapshots⟩
      · exact sameFor_saveTaskGraph_both h _ _
  | advanceTaskGraph named runId nodeId status =>
      obtain rfl := hcall named rfl
      simp only [PrismAgent.nextWorld, Env.sem, StateStore.advanceTaskGraph,
        MemoryStateStore.advanceTaskGraph, MemoryStateStore.getTaskGraph, h.taskGraphs]
      split
      · exact ⟨h.plans, h.taskGraphs, h.subAgentResults, h.contextSnapshots⟩
      · exact sameFor_saveTaskGraph_both h _ _
  | saveSubAgentResult named runId result =>
      obtain rfl := hcall named rfl
      refine ⟨h.plans, h.taskGraphs, fun id => ?_, h.contextSnapshots⟩
      refine update_congr_at (h.subAgentResults id) _ fun _ => ?_
      rw [h.subAgentResults]
  | saveContextSnapshot snapshot =>
      exact ⟨h.plans, h.taskGraphs, h.subAgentResults,
        fun id => update_congr_at (h.contextSnapshots id) _ fun _ => rfl⟩
  | _ => exact ⟨h.plans, h.taskGraphs, h.subAgentResults, h.contextSnapshots⟩

/-- What is filed under one workspace unwinds. -/
theorem unwinding (workspaceId : String) :
    Unwinding (PrismAgent.nextWorld env) Issues workspaceId Filed (SameFor workspaceId) where
  good _ _ _ _ h := filed_nextWorld env h
  own _ _ _ hcall _ _ h := h.nextWorld env hcall
  other t call w w' hne hcall hfiled h := by
    refine (sameFor_nextWorld env hfiled fun hnamed => ?_).trans h
    exact hne (hcall workspaceId hnamed).symm

end Unwinding

section Reads

variable (env : Env)

/-- The world after the calls, from an empty store. -/
def worldAfter (calls : List WorkspaceCall) : World MemoryStateStore :=
  replay (nextWorld env) { store := {} } calls

/-- The result that a call saves for an action. -/
def Call.savedResult (planId actionId : String) : Call → Option ToolResult
  | .saveActionResult result =>
      if (planId, actionId) = (result.planId, result.actionId) then some result else none
  | _ => none

/-- The result that the calls saved last for an action. -/
def lastResult (planId actionId : String) (calls : List WorkspaceCall) : Option ToolResult :=
  calls.reverse.findSome? fun call => call.2.savedResult planId actionId

theorem actionResults_worldAfter (calls : List WorkspaceCall) (planId actionId : String) :
    (worldAfter env calls).store.actionResults (planId, actionId) =
      lastResult planId actionId calls := by
  induction calls using List.reverseRecOn with
  | nil => rfl
  | append_singleton calls call ih =>
      unfold worldAfter at ih ⊢
      rw [replay_concat]
      unfold lastResult at ih ⊢
      rw [List.reverse_append, List.findSome?_append, ← ih]
      by_cases hwrites : call.2.writes = some .actionResults
      · obtain ⟨issuer, call⟩ := call
        cases call with
        | saveActionResult result =>
            change Function.update _ _ _ _ = _
            rw [Function.update_apply]
            by_cases h : (planId, actionId) = (result.planId, result.actionId)
            · simp [h, Call.savedResult]
            · have hnone : (Call.saveActionResult result).savedResult planId actionId = none :=
                if_neg h
              rw [if_neg h]
              simp [hnone]
        | _ => simp [Call.writes] at hwrites
      · have hsame :
            (nextWorld env call.2
              (replay (nextWorld env) { store := {} } calls)).store.actionResults =
            (replay (nextWorld env) { store := {} } calls).store.actionResults :=
          sem_same env hwrites
        have hnone : call.2.savedResult planId actionId = none := by
          obtain ⟨issuer, call⟩ := call
          cases call with
          | saveActionResult result => exact absurd rfl hwrites
          | _ => rfl
        rw [hsame]
        simp [hnone]

theorem mem_idempotencyKeys_worldAfter (calls : List WorkspaceCall) (key : String) :
    key ∈ (worldAfter env calls).store.idempotencyKeys ↔
      ∃ issuer, (issuer, Call.recordIdempotencyKey key) ∈ calls := by
  induction calls using List.reverseRecOn with
  | nil => simp [worldAfter]
  | append_singleton calls call ih =>
      unfold worldAfter at ih ⊢
      rw [replay_concat]
      obtain ⟨issuer, call⟩ := call
      by_cases hwrites : call.writes = some .idempotencyKeys
      · cases call with
        | recordIdempotencyKey recorded =>
            change key ∈ insert recorded _ ↔ _
            rw [Finset.mem_insert, ih]
            simp only [List.mem_append, List.mem_singleton, Prod.mk.injEq,
              Call.recordIdempotencyKey.injEq]
            constructor
            · rintro (rfl | ⟨other, hother⟩)
              · exact ⟨issuer, .inr ⟨rfl, rfl⟩⟩
              · exact ⟨other, .inl hother⟩
            · rintro ⟨other, hother | ⟨-, rfl⟩⟩
              · exact .inr ⟨other, hother⟩
              · exact .inl rfl
        | _ => simp [Call.writes] at hwrites
      · have hsame :
            (nextWorld env call
              (replay (nextWorld env) { store := {} } calls)).store.idempotencyKeys =
            (replay (nextWorld env) { store := {} } calls).store.idempotencyKeys :=
          sem_same env hwrites
        have hother : ∀ other, (other, Call.recordIdempotencyKey key) ≠ (issuer, call) := by
          rintro other heq
          obtain rfl := (Prod.mk.inj heq).2
          exact hwrites rfl
        rw [hsame, ih]
        simp [List.mem_append, hother]

/-- The read finds nothing that only another workspace has put there: a key recorded
before was recorded by the issuer too, and the result saved last for the action is the
one that the issuer saved last. -/
structure FindsOwn (before : List WorkspaceCall) (issuer : String) (call : Call) : Prop where
  keys : ∀ key, call = .checkIdempotencyKey key →
    (∃ other, (other, Call.recordIdempotencyKey key) ∈ before) →
      (issuer, Call.recordIdempotencyKey key) ∈ before
  results : ∀ planId actionId, call = .getActionResult planId actionId →
    lastResult planId actionId before = lastResult planId actionId (ownCalls issuer before)

/-- A read of a table that is filed under workspaces. -/
theorem answer_eq_of_sameFor {call : Call} {issuer : String} {w w' : World MemoryStateStore}
    (hcall : Issues issuer call) (hnamed : call.workspace ≠ none)
    (h : SameFor issuer w w') : (env.sem call w).1 = (env.sem call w').1 := by
  cases call with
  | getPlan named planId =>
      obtain rfl := hcall named rfl
      exact congrArg Except.ok (h.plans planId)
  | getTaskGraph named planId =>
      obtain rfl := hcall named rfl
      exact congrArg Except.ok (h.taskGraphs planId)
  | claimReadyNodes named runId =>
      obtain rfl := hcall named rfl
      simp only [Env.sem, StateStore.claimReadyNodes, MemoryStateStore.claimReadyNodes,
        MemoryStateStore.getTaskGraph, h.taskGraphs]
      split
      · rfl
      · rfl
  | advanceTaskGraph named runId nodeId status =>
      obtain rfl := hcall named rfl
      simp only [Env.sem, StateStore.advanceTaskGraph, MemoryStateStore.advanceTaskGraph,
        MemoryStateStore.getTaskGraph, h.taskGraphs]
      split
      · rfl
      · rfl
  | getSubAgentResults named runId =>
      obtain rfl := hcall named rfl
      exact congrArg (fun results => Except.ok (Dict.values results)) (h.subAgentResults runId)
  | getContextSnapshot named snapshotRef =>
      obtain rfl := hcall named rfl
      exact congrArg Except.ok (h.contextSnapshots snapshotRef)
  | savePlan plan => rfl
  | updatePlan plan => rfl
  | saveTaskGraph graph => rfl
  | saveSubAgentResult named runId result => rfl
  | saveContextSnapshot snapshot => rfl
  | _ => exact absurd rfl hnamed

theorem mem_ownCalls {issuer : String} {call : Call} {calls : List WorkspaceCall}
    {other : String} :
    (other, call) ∈ ownCalls issuer calls ↔ other = issuer ∧ (issuer, call) ∈ calls := by
  unfold ownCalls
  rw [List.mem_filter, decide_eq_true_eq]
  constructor
  · rintro ⟨hmem, rfl⟩
    exact ⟨rfl, hmem⟩
  · rintro ⟨rfl, hmem⟩
    exact ⟨hmem, rfl⟩

/-- A read is undisturbed if and only if it finds the issuer's own. -/
theorem answer_eq_iff {before : List WorkspaceCall} {issuer : String} {call : Call}
    (hbefore : ∀ c ∈ before, Issues c.1 c.2) (hcall : Issues issuer call) :
    (call.readsStore = true → (env.sem call (worldAfter env before)).1 =
        (env.sem call (worldAfter env (ownCalls issuer before))).1) ↔
      FindsOwn before issuer call := by
  have hempty : Filed { store := ({} : MemoryStateStore) } := by
    rintro _ _ _ ⟨⟩
  have hsame : SameFor issuer (worldAfter env before)
      (worldAfter env (ownCalls issuer before)) :=
    ((unwinding env issuer).replay_agrees hempty hempty (SameFor.refl _ _) hbefore).2.2
  by_cases hnamed : call.workspace = none
  · cases call with
    | checkIdempotencyKey key =>
        have hanswer : ∀ calls, (env.sem (.checkIdempotencyKey key) (worldAfter env calls)).1 =
            .ok (decide (key ∈ (worldAfter env calls).store.idempotencyKeys)) := fun _ => rfl
        rw [hanswer, hanswer, Except.ok.injEq, decide_eq_decide, mem_idempotencyKeys_worldAfter,
          mem_idempotencyKeys_worldAfter]
        simp only [mem_ownCalls, exists_eq_left]
        constructor
        · intro h
          refine ⟨?_, ?_⟩
          · rintro _ ⟨⟩ hother
            exact (h rfl).1 hother
          · rintro _ _ ⟨⟩
        · exact fun h _ => ⟨h.keys key rfl, fun hown => ⟨issuer, hown⟩⟩
    | getActionResult planId actionId =>
        have hanswer : ∀ calls, (env.sem (.getActionResult planId actionId)
            (worldAfter env calls)).1 =
              .ok ((worldAfter env calls).store.actionResults (planId, actionId)) := fun _ => rfl
        rw [hanswer, hanswer, Except.ok.injEq, actionResults_worldAfter,
          actionResults_worldAfter]
        constructor
        · intro h
          refine ⟨?_, ?_⟩
          · rintro _ ⟨⟩
          · rintro _ _ ⟨⟩
            exact h rfl
        · exact fun h _ => h.results planId actionId rfl
    | _ =>
        -- what reads another table names a workspace
        refine iff_of_true (fun hreads => ?_) ⟨by rintro _ ⟨⟩, by rintro _ _ ⟨⟩⟩
        first | (cases hreads; done) | cases hnamed
  · refine iff_of_true (fun _ => answer_eq_of_sameFor env hcall hnamed hsame) ⟨?_, ?_⟩
    · rintro key rfl
      exact absurd rfl hnamed
    · rintro planId actionId rfl
      exact absurd rfl hnamed

/-- Every read of a workspace answers as if the calls of the others had not happened. -/
def Undisturbed (calls : List WorkspaceCall) : Prop :=
  ∀ before issuer call after, calls = before ++ (issuer, call) :: after →
    call.readsStore = true →
      (env.sem call (worldAfter env before)).1 =
        (env.sem call (worldAfter env (ownCalls issuer before))).1

/-- Workspaces do not disturb each other if and only if their reads of keys and results
find their own. -/
theorem undisturbed_iff (calls : List WorkspaceCall)
    (hcalls : ∀ call ∈ calls, Issues call.1 call.2) :
    Undisturbed env calls ↔
      ∀ before issuer call after, calls = before ++ (issuer, call) :: after →
        FindsOwn before issuer call := by
  have hsplit : ∀ {before issuer call after}, calls = before ++ (issuer, call) :: after →
      (∀ c ∈ before, Issues c.1 c.2) ∧ Issues issuer call := by
    rintro before issuer call after rfl
    exact ⟨fun c hc => hcalls c (List.mem_append_left _ hc),
      hcalls (issuer, call) (List.mem_append_right _ List.mem_cons_self)⟩
  constructor
  · intro h before issuer call after heq
    obtain ⟨hbefore, hcall⟩ := hsplit heq
    exact (answer_eq_iff env hbefore hcall).1 (h before issuer call after heq)
  · intro h before issuer call after heq
    obtain ⟨hbefore, hcall⟩ := hsplit heq
    exact (answer_eq_iff env hbefore hcall).2 (h before issuer call after heq)

end Reads

/-- Workspace `a` consumes a key and a workspace checks a key. -/
def sampleCalls (key : String) : List WorkspaceCall :=
  [("a", .recordIdempotencyKey "k"), ("b", .checkIdempotencyKey key)]

/-- An environment without tools or workflows. -/
def bareEnv : Env :=
  Env.sample {}
    { planId := ""
      sourceEventId := ""
      workspaceId := ""
      projectId := none
      goal := ""
      promptId := ""
      promptVersion := ""
      contextSnapshotRef := "" }

/-- A plan of the run `run` in a workspace. -/
def planIn (workspaceId : String) : AgentPlan :=
  { planId := "run", sourceEventId := "event", workspaceId := workspaceId, projectId := none
    goal := "", promptId := "prompt", promptVersion := "1", contextSnapshotRef := "snapshot" }

def resultOf (resultId : String) : ToolResult :=
  { resultId := resultId, planId := "run", actionId := "1", toolName := "notify"
    success := true }

/-- Two workspaces have a run of one id and consume one key; each reads after it has written. -/
def apartCalls : List WorkspaceCall :=
  [("a", .savePlan (planIn "a")), ("b", .savePlan (planIn "b")), ("a", .getPlan "a" "run"),
    ("a", .recordIdempotencyKey "k"), ("b", .recordIdempotencyKey "k"),
    ("b", .checkIdempotencyKey "k"), ("a", .saveActionResult (resultOf "first")),
    ("b", .saveActionResult (resultOf "second")), ("b", .getActionResult "run" "1")]

/-- A call that is no read of a key or a result. -/
theorem findsOwn_of_named {before : List WorkspaceCall} {issuer : String} {call : Call}
    (hkey : ∀ key, call ≠ .checkIdempotencyKey key)
    (hresult : ∀ planId actionId, call ≠ .getActionResult planId actionId) :
    FindsOwn before issuer call :=
  ⟨fun key h => absurd h (hkey key), fun planId actionId h => absurd h (hresult planId actionId)⟩

/-- Runs of one id in two workspaces read their own plans, keys and results. -/
theorem undisturbed_sample : Undisturbed bareEnv apartCalls := by
  have hissued : ∀ call ∈ apartCalls, Issues call.1 call.2 := by
    have hnamed : ∀ call ∈ apartCalls, call.2.workspace.all (· = call.1) = true := by decide
    intro call hcall named hname
    have hsame := hnamed call hcall
    rw [hname, Option.all_some, decide_eq_true_eq] at hsame
    exact hsame
  refine (undisturbed_iff bareEnv apartCalls hissued).2 ?_
  suffices hfinds : ∀ before (call : WorkspaceCall) after,
      apartCalls = before ++ call :: after → FindsOwn before call.1 call.2 from
    fun before issuer call after heq => hfinds before (issuer, call) after heq
  simp only [apartCalls, forall_split_cons_iff, forall_split_nil_iff]
  refine ⟨findsOwn_of_named (by simp) (by simp), findsOwn_of_named (by simp) (by simp),
    findsOwn_of_named (by simp) (by simp), findsOwn_of_named (by simp) (by simp),
    findsOwn_of_named (by simp) (by simp), ⟨?_, by simp⟩, findsOwn_of_named (by simp) (by simp),
    findsOwn_of_named (by simp) (by simp), ⟨by simp, ?_⟩, trivial⟩
  · -- the key is the issuer's own too
    intro key hkey _
    obtain rfl : "k" = key := Call.checkIdempotencyKey.inj hkey
    simp
  · intro planId actionId hcall
    obtain ⟨rfl, rfl⟩ := Call.getActionResult.inj hcall
    rfl

/-- A key that one workspace consumed counts as consumed for the other. -/
theorem consumed_key_disturbs : ¬ Undisturbed bareEnv (sampleCalls "k") := by
  intro h
  have hanswer := h [("a", .recordIdempotencyKey "k")] "b" (.checkIdempotencyKey "k") [] rfl rfl
  have hconsumed : (Except.ok true : Except Exc Bool) = .ok false := hanswer
  cases hconsumed

end PrismAgent
