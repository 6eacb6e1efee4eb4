import PrismAgent.Effect.Interleaving
import PrismAgent.Effect.Typestate
import PrismAgent.Handler.Entry
import PrismAgent.Recovery.Recovers

/-!
# Concurrent deliveries of an action

Invocations of the action handler share a store and are interleaved call by call.
The handler reads the plan, looks the action's key up, and saves the plan with the action
RUNNING before it executes the tool, but nothing compares that save with what the others
have saved in the meantime. As long as each such save finds the action as PENDING as it
was read, the tool is executed at most once.
-/

namespace PrismAgent

open Effect

/-- The status of an action in a plan that is saved. -/
def AgentPlan.statusFor (plan : AgentPlan) (action : PlannedAction) : Option ActionStatus :=
  (plan.getAction action.actionId).bind fun a =>
    if a.planId = action.planId then some a.status else none

namespace ActionEventHandler

variable {σ : Type} [StateStore σ] (action : PlannedAction)

/-- The call executes the tool of the action. -/
def executes : Call → Bool
  | .executeOne _ a _ => a.planId = action.planId && a.actionId = action.actionId
  | _ => false

/-- The call saves a plan. -/
def saves : Call → Bool
  | .updatePlan _ => true
  | _ => false

/-- The call saves a plan in which the action is RUNNING. -/
def marks : Call → Bool
  | .updatePlan plan => plan.statusFor action = some .running
  | _ => false

/-- The program may execute the tool of the action without saving a plan again. -/
def MayExecute {α : Type} (p : App α) : Prop :=
  p.Reaches (fun call => executes action call = true) fun call _ => saves call = true

/-- The typestate of an invocation: it executes the tool one time after a save that marks the
action RUNNING. -/
def marking : Typestate Bool Call Call.Answer Exc where
  allows marked call := executes action call = true → marked = true
  next marked call _ :=
    if executes action call then false else if saves call then marks action call else marked

section Handler

variable {action} {α : Type}

/-- An invocation that has not marked the action executes nothing before it does. -/
theorem not_mayExecute {Q : α → Bool → Prop} {p : App α}
    (hp : p.Obeys (marking action) Q false) : ¬ MayExecute action p := by
  refine hp.not_reaches (J := fun marked => marked = false) (fun _ _ => trivial) ?_ ?_ rfl
  · intro s call hs hallows hexecutes
    rw [hs] at hallows
    cases hallows hexecutes
  · intro s call answer hs hallows hsaves
    change (if executes action call = true then false
      else if saves call = true then _ else s) = false
    split
    · rfl
    · exact hs

end Handler

section Pool

variable {ι : Type} [DecidableEq ι] (env : Env)

/-- No plan that has been saved since `w₀` has the action in another status than PENDING. -/
def StillPending (w₀ w : World σ) : Prop :=
  ∀ plan ∈ w.planWrites.drop w₀.planWrites.length,
    ∀ status, plan.statusFor action = some status → status = .pending

/-- An invocation that saves a plan and may go on to execute the tool of `action` finds the
action still PENDING. -/
def SavesPending (w₀ : World σ) (pool : Pool ι Call Call.Answer Exc Unit (World σ)) (i : ι) :
    Prop :=
  ∀ plan k, pool.program i = .call (.updatePlan plan) k → MayExecute action (k (.ok ())) →
    StillPending action w₀ pool.state

/-- At most one invocation may execute the tool, and none once it has been executed; the
action was still PENDING when it was marked. -/
structure Excludes (w₀ : World σ) (pool : Pool ι Call Call.Answer Exc Unit (World σ)) : Prop where
  obeys : ∀ i, ∃ marked, (pool.program i).Obeys (marking action) (fun _ _ => True) marked
  extends_writes : w₀.planWrites.length ≤ pool.state.planWrites.length
  fresh : StillPending action w₀ pool.state →
    pool.state.attempts action = w₀.attempts action ∧ ∀ i, ¬MayExecute action (pool.program i)
  bound : pool.state.attempts action ≤ w₀.attempts action + 1
  spent : ∀ i, MayExecute action (pool.program i) →
    pool.state.attempts action = w₀.attempts action
  unique : ∀ i j, MayExecute action (pool.program i) → MayExecute action (pool.program j) → i = j

variable {env} {action} {w₀ w : World σ} {call : Call}

theorem attempts_sem :
    (env.sem call w).2.attempts action =
      w.attempts action + if executes action call = true then 1 else 0 := by
  cases call with
  | executeOne plan a context =>
      change List.countP _ (w.executions ++ _) = _
      rw [List.countP_append, List.countP_singleton]
      simp [World.attempts, executes]
  | _ => rfl

theorem exists_planWrites_sem (env : Env) (call : Call) (w : World σ) :
    ∃ plans, (env.sem call w).2.planWrites = w.planWrites ++ plans := by
  cases call with
  | savePlan plan => exact ⟨[plan], rfl⟩
  | updatePlan plan => exact ⟨[plan], rfl⟩
  | _ => exact ⟨[], (List.append_nil _).symm⟩

/-- What has been saved stays saved. -/
theorem stillPending_of_sem (hlength : w₀.planWrites.length ≤ w.planWrites.length)
    (h : StillPending action w₀ (env.sem call w).2) : StillPending action w₀ w := by
  obtain ⟨plans, hplans⟩ := exists_planWrites_sem env call w
  intro plan hplan
  refine h plan ?_
  rw [hplans, List.drop_append_of_le_length hlength]
  exact List.mem_append_left _ hplan

/-- A save that marks the action leaves it no longer PENDING. -/
theorem not_stillPending_of_marks (hlength : w₀.planWrites.length ≤ w.planWrites.length)
    (hmarks : marks action call = true) : ¬StillPending action w₀ (env.sem call w).2 := by
  cases call with
  | updatePlan plan =>
      intro h
      have hstatus := h plan (by
        change plan ∈ (w.planWrites ++ [plan]).drop _
        rw [List.drop_append_of_le_length hlength]
        simp) .running (of_decide_eq_true hmarks)
      cases hstatus
  | _ => cases hmarks

variable {pool : Pool ι Call Call.Answer Exc Unit (World σ)} {i : ι}

/-- A turn leaves every invocation with its typestate. -/
theorem obeys_step
    (h : ∀ j, ∃ marked, (pool.program j).Obeys (marking action) (fun _ _ => True) marked) :
    ∀ j, ∃ marked, ((pool.step env.sem i).program j).Obeys (marking action) (fun _ _ => True)
      marked := by
  choose stages hstages using h
  intro j
  cases hp : pool.program i with
  | pure a =>
      rw [Pool.step_of_pure hp]
      exact ⟨_, hstages j⟩
  | raise x =>
      rw [Pool.step_of_raise hp]
      exact ⟨_, hstages j⟩
  | call call k =>
      rw [Pool.step_of_call hp]
      exact ⟨_, Pool.obeys_update hp hstages trivial j⟩

omit [DecidableEq ι] in
/-- Who may execute the tool after a call might before it, or the call marks the action as it
was read. -/
theorem mayExecute_of_call {k : Except Exc call.Answer → App Unit} {marked : Bool}
    (hp : pool.program i = .call call k) (hC : SavesPending action w₀ pool i)
    (hobeys : (pool.program i).Obeys (marking action) (fun _ _ => True) marked)
    (hmay : MayExecute action (k (env.sem call pool.state).1)) :
    executes action call = false ∧ (MayExecute action (pool.program i) ∨
      marks action call = true ∧ StillPending action w₀ pool.state) := by
  rw [hp] at hobeys
  have hafter := hobeys.2 (env.sem call pool.state).1 trivial
  change (k (env.sem call pool.state).1).Obeys _ _ (if executes action call then false
    else if saves call = true then marks action call else marked) at hafter
  have hcall : executes action call = false := by
    by_contra htrue
    rw [Bool.not_eq_false] at htrue
    rw [if_pos htrue] at hafter
    exact not_mayExecute hafter hmay
  refine ⟨hcall, ?_⟩
  by_cases hsaves : saves call = true
  · rw [hcall, if_neg Bool.false_ne_true, if_pos hsaves] at hafter
    have hmarks : marks action call = true := by
      by_contra hnot
      rw [Bool.eq_false_iff.2 hnot] at hafter
      exact not_mayExecute hafter hmay
    refine .inr ⟨hmarks, ?_⟩
    cases call with
    | updatePlan plan => exact hC plan k hp hmay
    | _ => cases hsaves
  · rw [hp]
    exact .inl (.inr ⟨_, hsaves, hmay⟩)

/-- One call of one invocation keeps `Excludes`. -/
theorem Excludes.step {k : Except Exc call.Answer → App Unit}
    (hp : pool.program i = .call call k) (hC : SavesPending action w₀ pool i)
    (h : Excludes action w₀ pool) :
    Excludes action w₀
      { program := Function.update pool.program i (k (env.sem call pool.state).1)
        state := (env.sem call pool.state).2 } := by
  have hobeys : ∀ j, ∃ marked, ((pool.step env.sem i).program j).Obeys (marking action)
      (fun _ _ => True) marked := obeys_step h.obeys
  rw [Pool.step_of_call hp] at hobeys
  have hexecutes : executes action call = true → MayExecute action (pool.program i) := by
    intro hcall
    rw [hp]
    exact .inl hcall
  have hmay : ∀ j, MayExecute action (Function.update pool.program i
      (k (env.sem call pool.state).1) j) → (j = i → executes action call = false) ∧
        (MayExecute action (pool.program j) ∨
          j = i ∧ marks action call = true ∧ StillPending action w₀ pool.state) := by
    intro j hj
    by_cases hji : j = i
    · subst hji
      rw [Function.update_self] at hj
      obtain ⟨marked, hmarked⟩ := h.obeys j
      obtain ⟨hcall, hbefore⟩ := mayExecute_of_call hp hC hmarked hj
      exact ⟨fun _ => hcall, hbefore.imp_right fun hmarks => ⟨rfl, hmarks⟩⟩
    · rw [Function.update_of_ne hji] at hj
      exact ⟨fun heq => absurd heq hji, .inl hj⟩
  constructor
  case obeys => exact hobeys
  case extends_writes =>
    obtain ⟨plans, hplans⟩ := exists_planWrites_sem env call pool.state
    change _ ≤ (env.sem call pool.state).2.planWrites.length
    rw [hplans, List.length_append]
    exact Nat.le_add_right_of_le h.extends_writes
  case fresh =>
    intro hpending
    obtain ⟨hattempts, hnone⟩ := h.fresh (stillPending_of_sem h.extends_writes hpending)
    have hcall : executes action call = false :=
      Bool.eq_false_iff.2 fun hcall => hnone i (hexecutes hcall)
    refine ⟨?_, fun j hj => ?_⟩
    · change (env.sem call pool.state).2.attempts action = _
      rw [attempts_sem, hcall, hattempts]
      rfl
    · rcases (hmay j hj).2 with hold | ⟨-, hmarks, -⟩
      · exact hnone j hold
      · exact not_stillPending_of_marks h.extends_writes hmarks hpending
  case bound =>
    change (env.sem call pool.state).2.attempts action ≤ _
    rw [attempts_sem]
    split
    next hcall => rw [h.spent i (hexecutes hcall)]
    next => exact h.bound
  case spent =>
    intro j hj
    obtain ⟨hself, hold | ⟨hji, -, hpending⟩⟩ := hmay j hj
    · have hcall : executes action call = false := Bool.eq_false_iff.2 fun hcall => by
        rw [hself (h.unique j i hold (hexecutes hcall))] at hcall
        cases hcall
      change (env.sem call pool.state).2.attempts action = _
      rw [attempts_sem, hcall, h.spent j hold]
      rfl
    · change (env.sem call pool.state).2.attempts action = _
      rw [attempts_sem, hself hji, (h.fresh hpending).1]
      rfl
  case unique =>
    intro j l hj hl
    rcases (hmay j hj).2 with hold | ⟨rfl, -, hpending⟩
    · rcases (hmay l hl).2 with hold' | ⟨-, -, hpending⟩
      · exact h.unique j l hold hold'
      · exact absurd hold ((h.fresh hpending).2 j)
    · rcases (hmay l hl).2 with hold' | ⟨rfl, -, -⟩
      · exact absurd hold' ((h.fresh hpending).2 l)
      · rfl

end Pool

section Sample

variable {action}

end Sample

end ActionEventHandler

end PrismAgent
