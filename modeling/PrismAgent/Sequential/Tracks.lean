import PrismAgent.Sequential.Entry

/-!
# The track of a plan

A world keeps plans under keys. The track of a key is what the world holds, has written and
has executed of the plan under it. Moves that are about one key extend its track and leave the
tracks of the others.
-/

namespace PrismAgent

open Function (update)

/-- What a plan is stored under. -/
abbrev AgentPlan.key (p : AgentPlan) : String × String := (p.workspaceId, p.planId)

/-- The plan that is stored under a key, all plans written to it and the executions of their
actions. -/
structure PlanTrack where
  stored : Option AgentPlan := none
  writes : List AgentPlan := []
  executions : List Execution := []

namespace PlanTrack

variable (track : PlanTrack)

def extend (plans : List AgentPlan) (executions : List Execution) : PlanTrack where
  stored := plans.foldl (fun _ p => some p) track.stored
  writes := track.writes ++ plans
  executions := track.executions ++ executions

/-- How often the tool of the action has returned success. -/
def successes (actionId : String) : ℕ :=
  track.executions.countP fun x => x.action.actionId = actionId ∧ x.outcome = .success

@[simp] theorem extend_nil : track.extend [] [] = track := by
  simp [extend]

end PlanTrack

/-- What the world has recorded of the plan under a key. -/
def World.track (w : World MemoryStateStore) (key : String × String) : PlanTrack where
  stored := w.store.plans key
  writes := w.planWrites.filter fun p => p.key = key
  executions := w.executions.filter fun x => x.plan.key = key

theorem foldl_update_key {plans : List AgentPlan} {key : String × String}
    (h : ∀ p ∈ plans, p.key = key) (table : String × String → Option AgentPlan) :
    plans.foldl (fun (table : String × String → Option AgentPlan) p =>
        update table p.key (some p)) table =
      update table key (plans.foldl (fun _ p => some p) (table key)) := by
  induction plans generalizing table with
  | nil => exact (Function.update_eq_self key table).symm
  | cons p plans ih =>
      obtain ⟨rfl, hplans⟩ := List.forall_mem_cons.1 h
      rw [List.foldl_cons, List.foldl_cons, ih hplans, Function.update_self,
        Function.update_idem]

namespace Moves

variable {w t : World MemoryStateStore} {plans : List AgentPlan} {executions : List Execution}
  {events : List EventEnvelope} {key : String × String}

/-- What is about one key extends its track. -/
theorem track_self (h : Moves w t plans executions events) (hplans : ∀ p ∈ plans, p.key = key)
    (hexecutions : ∀ x ∈ executions, x.plan.key = key) :
    t.track key = (w.track key).extend plans executions := by
  unfold World.track PlanTrack.extend
  congr 1
  · rw [h.table, foldl_update_key hplans, Function.update_self]
  · rw [h.planWrites, List.filter_append, List.filter_eq_self.2 fun p hp =>
      decide_eq_true (hplans p hp)]
  · rw [h.executions, List.filter_append, List.filter_eq_self.2 fun x hx =>
      decide_eq_true (hexecutions x hx)]

/-- What is about one key leaves the tracks of the others. -/
theorem track_of_ne (h : Moves w t plans executions events) (hplans : ∀ p ∈ plans, p.key = key)
    (hexecutions : ∀ x ∈ executions, x.plan.key = key) {key' : String × String}
    (hkey : key' ≠ key) : t.track key' = w.track key' := by
  have hwrites : (plans.filter fun p => p.key = key') = [] :=
    List.filter_eq_nil_iff.2 fun p hp => by simpa [hplans p hp] using Ne.symm hkey
  have hruns : (executions.filter fun x => x.plan.key = key') = [] :=
    List.filter_eq_nil_iff.2 fun x hx => by simpa [hexecutions x hx] using Ne.symm hkey
  unfold World.track
  congr 1
  · rw [h.table, foldl_update_key hplans, Function.update_of_ne hkey]
  · rw [h.planWrites, List.filter_append, hwrites, List.append_nil]
  · rw [h.executions, List.filter_append, hruns, List.append_nil]

end Moves

end PrismAgent
