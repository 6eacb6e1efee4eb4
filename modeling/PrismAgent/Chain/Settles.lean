import PrismAgent.Chain.Agreement
import PrismAgent.Chain.Trail

/-!
# Draining settles a plan

A normalized plan with distinct action ids and fresh keys is drained from the event
of its first action, whatever the oracle says. `Running` is the invariant of the
machine: the actions before the current one are COMPLETED, the ones behind it are
PENDING with unconsumed keys, and the current one has failed fewer than three times.
Every step ends the chain with a settled plan, tries the action once more, or moves
to the next one.
-/

namespace PrismAgent

open Effect

namespace AgentPlan

/-- The position of a tool call's action in the plan. -/
def position (p : AgentPlan) (x : Execution) : ℕ :=
  (p.actions.map (·.actionId)).idxOf x.action.actionId

/-- The status of a plan that runs in order, when its current action has a status and
actions are left behind it or not. -/
def statusBehind (last : Bool) : ActionStatus → PlanStatus
  | .failed => .failed
  | .requiresApproval => .waitingForApproval
  | .stale => .replanRequired
  | .completed | .skipped => if last then .completed else .running
  | .pending | .running => .running

theorem statusOf_split {pre post : List PlannedAction} {a : PlannedAction}
    (hpre : ∀ b ∈ pre, b.status = .completed) (hpost : ∀ b ∈ post, b.status = .pending) :
    statusOf (pre ++ a :: post) = statusBehind post.isEmpty a.status := by
  have hall : pre.all (fun a => a.status = .completed ∨ a.status = .skipped) = true := by
    simpa using fun b hb => Or.inl (hpre b hb)
  have hpreNone : ∀ s, s ≠ .completed → pre.any (fun a => a.status = s) = false := by
    intro s hs
    rw [List.any_eq_false]
    intro b hb
    simpa [hpre b hb] using hs.symm
  have hpostNone : ∀ s, s ≠ .pending → post.any (fun a => a.status = s) = false := by
    intro s hs
    rw [List.any_eq_false]
    intro b hb
    simpa [hpost b hb] using hs.symm
  have hpostAll : post.all (fun a => a.status = .completed ∨ a.status = .skipped) =
      post.isEmpty := by
    cases post with
    | nil => rfl
    | cons b post => simp [hpost b List.mem_cons_self]
  unfold statusOf
  simp only [List.all_append, List.all_cons, List.any_append, List.any_cons, hall, hpostAll,
    hpreNone, hpostNone, ne_eq, reduceCtorEq, not_false_eq_true]
  cases a.status <;> simp [statusBehind]

variable {p : AgentPlan}

theorem idxOf_of_split {pre post : List PlannedAction} {a : PlannedAction}
    (hnodup : (p.actions.map (·.actionId)).Nodup) (hsplit : p.actions = pre ++ a :: post) :
    (p.actions.map (·.actionId)).idxOf a.actionId = pre.length := by
  rw [hsplit, List.map_append, List.map_cons, List.nodup_append] at hnodup
  obtain ⟨-, -, hdisjoint⟩ := hnodup
  have hpre : a.actionId ∉ pre.map (·.actionId) := fun hmem =>
    hdisjoint _ hmem _ List.mem_cons_self rfl
  rw [hsplit, List.map_append, List.map_cons, List.idxOf_append_of_notMem hpre,
    List.idxOf_cons_self, List.length_map, Nat.add_zero]

theorem idxOf_lt {a : PlannedAction} (ha : a ∈ p.actions) :
    (p.actions.map (·.actionId)).idxOf a.actionId < p.actions.length := by
  simpa using List.idxOf_lt_length_of_mem (List.mem_map_of_mem ha)

/-- A call is for an action of the plan when it has its position. -/
theorem actionId_eq_iff {x : Execution} (hx : x.action ∈ p.actions) (a : PlannedAction) :
    x.action.actionId = a.actionId ↔
      p.position x = (p.actions.map (·.actionId)).idxOf a.actionId :=
  (List.idxOf_inj (List.mem_map_of_mem hx)).symm

end AgentPlan

/-- A plan that was drained with the tool calls `xs` and ended in `status`. -/
structure PlanSettled (p : AgentPlan) (xs : List Execution) (status : PlanStatus) :
    Prop where
  planned : ∀ x ∈ xs, x.action ∈ p.actions
  attempts : ∀ a ∈ p.actions, (xs.countP fun x => x.action.actionId = a.actionId) ≤
    ActionEventHandler.ACTION_EXECUTION_ATTEMPTS
  ordered : xs.Pairwise fun x y => p.position x ≤ p.position y
  guarded : ∀ pre a post, p.actions = pre ++ a :: post →
    (∀ x ∈ xs, x.action.actionId = a.actionId → x.outcome ≠ .success) →
      ∀ b ∈ post, ∀ x ∈ xs, x.action.actionId ≠ b.actionId
  settled : status = .completed ∨ status = .failed ∨ status = .waitingForApproval ∨
    status = .replanRequired
  completed : status = .completed ↔
    ∀ a ∈ p.actions, ∃ x ∈ xs, x.action.actionId = a.actionId ∧ x.outcome = .success

/-- A trail that ended settles the plan, COMPLETED if it passed every action. -/
theorem Trail.settles {p : AgentPlan} {n k : ℕ} {xs : List Execution} {status : PlanStatus}
    (h : Trail p.position n k xs) (hnodup : (p.actions.map (·.actionId)).Nodup)
    (hplanned : ∀ x ∈ xs, x.action ∈ p.actions)
    (hk : k ≤ ActionEventHandler.ACTION_EXECUTION_ATTEMPTS) (hn : n ≤ p.actions.length)
    (hsettled : status = .completed ∨ status = .failed ∨ status = .waitingForApproval ∨
      status = .replanRequired)
    (hcompleted : status = .completed ↔ n = p.actions.length) : PlanSettled p xs status where
  planned := hplanned
  attempts a _ := by
    have hcount : (xs.countP fun x => x.action.actionId = a.actionId) =
        xs.countP fun x => p.position x = (p.actions.map (·.actionId)).idxOf a.actionId := by
      apply List.countP_congr
      intro x hx
      simp [AgentPlan.actionId_eq_iff (hplanned x hx) a]
    rw [hcount]
    rcases Nat.lt_trichotomy ((p.actions.map (·.actionId)).idxOf a.actionId) n with
      hlt | heq | hgt
    · exact h.attempts _ hlt
    · rw [heq, h.failures]
      exact hk
    · have hnone : (xs.countP fun x =>
          p.position x = (p.actions.map (·.actionId)).idxOf a.actionId) = 0 := by
        rw [List.countP_eq_zero]
        intro x hx
        have hle := h.within x hx
        simp only [decide_eq_true_eq]
        omega
      rw [hnone]
      exact Nat.zero_le _
  ordered := h.ordered
  guarded pre a post hsplit hfailed b hb x hx hid := by
    obtain ⟨mid, last, rfl⟩ := List.append_of_mem hb
    have ha := AgentPlan.idxOf_of_split hnodup hsplit
    have hsplit' : p.actions = (pre ++ a :: mid) ++ b :: last := by
      rw [hsplit]
      simp
    have hb' := AgentPlan.idxOf_of_split hnodup hsplit'
    have hlt : (p.actions.map (·.actionId)).idxOf a.actionId < n := by
      have hle := h.within x hx
      rw [(AgentPlan.actionId_eq_iff (hplanned x hx) b).1 hid, hb'] at hle
      rw [ha]
      simp only [List.length_append, List.length_cons] at hle
      omega
    obtain ⟨y, hy, hposition, hsuccess⟩ := h.successes _ hlt
    exact hfailed y hy ((AgentPlan.actionId_eq_iff (hplanned y hy) a).2 hposition) hsuccess
  settled := hsettled
  completed := by
    rw [hcompleted]
    constructor
    · rintro rfl a ha
      obtain ⟨x, hx, hposition, hsuccess⟩ := h.successes _ (AgentPlan.idxOf_lt ha)
      exact ⟨x, hx, (AgentPlan.actionId_eq_iff (hplanned x hx) a).2 hposition, hsuccess⟩
    · intro hall
      by_contra hne
      have hlt : n < p.actions.length := by omega
      obtain ⟨x, hx, hid, hsuccess⟩ := hall p.actions[n] (List.getElem_mem hlt)
      apply h.unsuccessful x hx ?_ hsuccess
      rw [(AgentPlan.actionId_eq_iff (hplanned x hx) _).1 hid]
      have hsplit : p.actions = p.actions.take n ++ p.actions[n] :: p.actions.drop (n + 1) := by
        simp
      rw [AgentPlan.idxOf_of_split hnodup hsplit]
      exact List.length_take_of_le (Nat.le_of_lt hlt)

end PrismAgent
