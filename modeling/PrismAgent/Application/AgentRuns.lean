import Mathlib.Logic.Function.Basic
import PrismAgent.Application.ActionEventHandler

/-!
# The runs that the API stores

`AgentRunSync` over an API that stores every status it is given and answers a second
creation of a run with the stored run. `Env.apiSem` is the semantics of the calls in
which the sync is answered from these statuses.
-/

namespace PrismAgent

open Effect

def AGENT_RUN_TERMINAL_STATUSES : List String := ["completed", "failed", "cancelled"]

/-- The status that the API stores for each workspace and run. -/
abbrev RunStatuses := String × String → Option String

namespace RunStatuses

open Function (update update_self update_of_ne)

variable (statuses : RunStatuses)

/-- The statuses after a sync call: a run is created once, as running, and the other
calls store a status or none. -/
def record : SyncCall → RunStatuses
  | .runStarted context runId _ _ =>
      match statuses (context.workspaceId, runId) with
      | some _ => statuses
      | none => update statuses (context.workspaceId, runId) (some "running")
  | .planCreated _ => statuses
  | .runFailed workspaceId runId _ => update statuses (workspaceId, runId) (some "failed")
  | .runRunning workspaceId runId => update statuses (workspaceId, runId) (some "running")
  | .actionState plan _ _ _ =>
      let runStatus := if plan.isSubplan then "running" else runStatusToApi plan
      if runStatus ≠ "running" then
        update statuses (plan.workspaceId, ActionEventHandler.apiRunId plan) (some runStatus)
      else statuses
  | .runCompletedById workspaceId runId =>
      update statuses (workspaceId, runId) (some "completed")

/-- The statuses after all sync calls so far. -/
def after (calls : List SyncCall) : RunStatuses := calls.foldl record statuses

@[simp] theorem after_nil : statuses.after [] = statuses := rfl

theorem after_pair (calls : List SyncCall) (call call' : SyncCall) :
    statuses.after (calls ++ [call, call']) =
      ((statuses.after calls).record call).record call' :=
  List.foldl_append

/-- The API holds a terminal status for the run. -/
def Settled (workspaceId runId : String) : Prop :=
  ∃ status ∈ AGENT_RUN_TERMINAL_STATUSES, statuses (workspaceId, runId) = some status

/-- A started and failed run is terminal. -/
theorem settled_failed {context : AgentContext} {workspaceId runId : String}
    (objective promptVersion message : String) :
    ((statuses.record (.runStarted context runId objective promptVersion)).record
      (.runFailed workspaceId runId message)).Settled workspaceId runId :=
  ⟨"failed", by decide, update_self _ _ _⟩

/-- Starting and failing a run settles no other run. -/
theorem settled_of_failed {context : AgentContext} {workspaceId runId other : String}
    {objective promptVersion message : String} (hcontext : context.workspaceId = workspaceId)
    (h : ((statuses.record (.runStarted context runId objective promptVersion)).record
      (.runFailed workspaceId runId message)).Settled workspaceId other) :
    other = runId ∨ statuses.Settled workspaceId other := by
  by_cases hother : other = runId
  · exact .inl hother
  · right
    obtain ⟨status, hterminal, hstored⟩ := h
    refine ⟨status, hterminal, ?_⟩
    subst hcontext
    have hne : (context.workspaceId, other) ≠ (context.workspaceId, runId) := by
      simpa using hother
    unfold record at hstored
    dsimp only at hstored
    rw [update_of_ne hne] at hstored
    cases hrun : statuses (context.workspaceId, runId) with
    | some status' =>
        rw [hrun] at hstored
        exact hstored
    | none =>
        rw [hrun] at hstored
        dsimp only at hstored
        rw [update_of_ne hne] at hstored
        exact hstored

/-- `_raise_if_run_terminal` on the status that a creation is answered with. -/
def startAnswer (workspaceId runId : String) : Except Exc Unit :=
  match statuses (workspaceId, runId) with
  | some status =>
      if status ∈ AGENT_RUN_TERMINAL_STATUSES then .error (.runAlreadyTerminal runId status)
      else .ok ()
  | none => .ok ()

theorem startAnswer_of_settled {workspaceId runId : String}
    (h : statuses.Settled workspaceId runId) :
    ∃ status, statuses.startAnswer workspaceId runId =
      .error (.runAlreadyTerminal runId status) := by
  obtain ⟨status, hterminal, hstored⟩ := h
  refine ⟨status, ?_⟩
  unfold startAnswer
  rw [hstored]
  exact if_pos hterminal

theorem startAnswer_of_not_settled {workspaceId runId : String}
    (h : ¬ statuses.Settled workspaceId runId) :
    statuses.startAnswer workspaceId runId = .ok () := by
  unfold startAnswer
  split
  next status hstored => exact if_neg fun hterminal => h ⟨status, hterminal, hstored⟩
  next => rfl

/-- The answer of the agent-run sync; only a creation can find a terminal run, since an
update is answered with the status that it stores. -/
def answer : SyncCall → Except Exc Unit
  | .runStarted context runId _ _ => statuses.startAnswer context.workspaceId runId
  | _ => .ok ()

end RunStatuses

namespace Env

variable {σ : Type} [StateStore σ] (env : Env)

/-- The semantics of the calls over an API that initially stores `stored`; a sync that is
not enabled calls no API. -/
def apiSem (enabled : Bool) (stored : RunStatuses) :
    Semantics Call Call.Answer Exc (World σ) := fun call w =>
  match call with
  | .sync syncCall =>
      (if enabled then (stored.after w.syncCalls).answer syncCall else .ok (),
        (env.sem (.sync syncCall) w).2)
  | call => env.sem call w

variable {enabled : Bool} {stored : RunStatuses} {w : World σ}

/-- The API answers the sync and changes nothing else. -/
@[simp] theorem apiSem_snd (call : Call) :
    (env.apiSem enabled stored call w).2 = (env.sem call w).2 := by
  cases call <;> rfl

end Env

end PrismAgent
