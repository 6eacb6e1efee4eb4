import PrismAgent.Listing.Reported

/-!
# The API mirrors a table of plans

The calls of the sync mirror a table of plans when the API lists every action of a plan in the
table as the plan has it. A plan that is told is mirrored from then on, and an action that is
reported in a status is mirrored in it, as long as the ids under which actions are listed differ.
-/

namespace PrismAgent

open ActionEventHandler (apiRunId)
open Function (update update_self update_of_ne)

/-- A table of plans by workspace and id. -/
abbrev PlanTable := String × String → Option AgentPlan

/-- No action of one plan is listed where an action of the other is. -/
def AgentPlan.Apart (uuid5 : String → String) (p q : AgentPlan) : Prop :=
  p.workspaceId = q.workspaceId → apiRunId p = apiRunId q →
    ∀ a ∈ p.actions, ∀ b ∈ q.actions, actionApiId uuid5 a ≠ actionApiId uuid5 b

theorem AgentPlan.Apart.symm {uuid5 : String → String} {p q : AgentPlan} (h : p.Apart uuid5 q) :
    q.Apart uuid5 p :=
  fun hws hrun a ha b hb heq => h hws.symm hrun.symm b hb a ha heq.symm

/-- The API lists every action of a plan in the table as the plan has it. -/
structure Mirrored (runs : RunApi) (uuid5 : String → String) (createdAt : AgentContext → String)
    (plans : PlanTable) (calls : List SyncCall) : Prop where
  placed : ∀ {key p}, plans key = some p → (p.workspaceId, p.planId) = key
  single : ∀ {key p}, plans key = some p → ∀ a ∈ p.actions, ∀ b ∈ p.actions,
    actionApiId uuid5 a = actionApiId uuid5 b → a.actionId = b.actionId
  apart : ∀ {key key' p q}, plans key = some p → plans key' = some q → key ≠ key' →
    p.Apart uuid5 q
  told : ∀ {key p}, plans key = some p → ∀ a ∈ p.actions,
    runs.told uuid5 createdAt calls p.workspaceId (apiRunId p) (actionApiId uuid5 a) =
      some (upsertAction uuid5 a)

theorem update_eq_some {plans : PlanTable} {key key' : String × String} {q p : AgentPlan}
    (h : update plans key (some q) key' = some p) :
    (key' = key ∧ p = q) ∨ (key' ≠ key ∧ plans key' = some p) := by
  by_cases hkey : key' = key
  · rw [hkey, update_self] at h
    exact .inl ⟨hkey, (Option.some.inj h).symm⟩
  · rw [update_of_ne hkey] at h
    exact .inr ⟨hkey, h⟩

section Replace

variable {q : AgentPlan} {updated b : PlannedAction} {uuid5 : String → String}
  (hb : b ∈ q.actions) (hid : updated.actionId = b.actionId) (hplan : updated.planId = b.planId)

include hb hid hplan

/-- Every action is listed where an action of the old plan is. -/
theorem AgentPlan.exists_of_mem_replaceAction {a : PlannedAction}
    (ha : a ∈ (q.replaceAction updated).actions) :
    ∃ a' ∈ q.actions, a'.actionId = a.actionId ∧ actionApiId uuid5 a' = actionApiId uuid5 a := by
  rcases AgentPlan.mem_replaceAction ha with rfl | ⟨ha, -⟩
  · refine ⟨b, hb, hid.symm, ?_⟩
    unfold actionApiId
    rw [hid, hplan]
  · exact ⟨a, ha, rfl, rfl⟩

theorem AgentPlan.Apart.replaceAction {p : AgentPlan} (h : q.Apart uuid5 p) :
    (q.replaceAction updated).Apart uuid5 p := by
  intro hws hrun a ha c hc heq
  obtain ⟨a', ha', -, hapi⟩ :=
    @AgentPlan.exists_of_mem_replaceAction q updated b uuid5 hb hid hplan a ha
  exact h hws hrun a' ha' c hc (hapi.trans heq)

end Replace

namespace Mirrored

variable {runs : RunApi} {uuid5 : String → String} {createdAt : AgentContext → String}
  {plans : PlanTable} {calls : List SyncCall} (hruns : runs.Lawful)
  (h : Mirrored runs uuid5 createdAt plans calls)

/-- Nothing is stored and nothing has to be listed. -/
theorem empty (calls : List SyncCall) : Mirrored runs uuid5 createdAt (fun _ => none) calls where
  placed h := by cases h
  single h := by cases h
  apart h := by cases h
  told h := by cases h

section Calls

include hruns h

/-- A report that is not of an action leaves what is listed. -/
theorem quiet {call : SyncCall} (hcall : call.Quiet) :
    Mirrored runs uuid5 createdAt plans (calls ++ [call]) where
  placed := h.placed
  single := h.single
  apart := h.apart
  told hp a ha := (hruns.told_quiet hcall).trans (h.told hp a ha)

theorem append_quiet {more : List SyncCall} (hmore : ∀ call ∈ more, call.Quiet) :
    Mirrored runs uuid5 createdAt plans (calls ++ more) := by
  induction more generalizing calls with
  | nil => rwa [List.append_nil]
  | cons call more ih =>
      rw [List.append_cons]
      refine ih (h.quiet hruns (hmore call List.mem_cons_self)) ?_
      exact fun call' hcall' => hmore call' (List.mem_cons_of_mem _ hcall')

/-- A plan is told, with ids apart from those of the other plans. -/
theorem planCreated {plan : AgentPlan}
    (hsingle : (plan.actions.map (actionApiId uuid5)).Nodup)
    (hapart : ∀ {key p}, plans key = some p → key ≠ (plan.workspaceId, plan.planId) →
      plan.Apart uuid5 p) :
    Mirrored runs uuid5 createdAt (update plans (plan.workspaceId, plan.planId) (some plan))
      (calls ++ [.planCreated plan]) := by
  constructor
  case placed =>
    intro key p hp
    rcases update_eq_some hp with ⟨rfl, rfl⟩ | ⟨-, hp⟩
    · rfl
    · exact h.placed hp
  case single =>
    intro key p hp a ha c hc heq
    rcases update_eq_some hp with ⟨rfl, rfl⟩ | ⟨-, hp⟩
    · exact congrArg _ (List.inj_on_of_nodup_map hsingle ha hc heq)
    · exact h.single hp a ha c hc heq
  case apart =>
    intro key key' p p' hp hp' hne
    rcases update_eq_some hp with ⟨rfl, rfl⟩ | ⟨hkey, hold⟩
    · rcases update_eq_some hp' with ⟨rfl, rfl⟩ | ⟨hkey', hold'⟩
      · exact absurd rfl hne
      · exact hapart hold' hkey'
    · rcases update_eq_some hp' with ⟨rfl, rfl⟩ | ⟨hkey', hold'⟩
      · exact (hapart hold hkey).symm
      · exact h.apart hold hold' hne
  case told =>
    intro key p hp a ha
    rcases update_eq_some hp with ⟨rfl, rfl⟩ | ⟨hkey, hp⟩
    · exact hruns.told_planCreated hsingle ha
    · refine (hruns.told_planCreated_of_ne ?_).trans (h.told hp a ha)
      exact fun hws hrun c hc => hapart hp hkey hws hrun c hc a ha

/-- An action of a plan in the table is reported in a new status. -/
theorem actionState {q : AgentPlan} {updated b : PlannedAction}
    (hq : plans (q.workspaceId, q.planId) = some q) (hb : b ∈ q.actions)
    (hid : updated.actionId = b.actionId) (hplan : updated.planId = b.planId)
    (eventName message : String) :
    Mirrored runs uuid5 createdAt
      (update plans (q.workspaceId, q.planId) (some (q.replaceAction updated)))
      (calls ++ [.actionState (q.replaceAction updated) updated eventName message]) := by
  have hmem : updated.actionId ∈ (q.replaceAction updated).actions.map (·.actionId) := by
    rw [AgentPlan.actionIds_replaceAction, hid]
    exact List.mem_map_of_mem hb
  have hupdated : actionApiId uuid5 b = actionApiId uuid5 updated := by
    unfold actionApiId
    rw [hid, hplan]
  constructor
  case placed =>
    intro key p hp
    rcases update_eq_some hp with ⟨rfl, rfl⟩ | ⟨-, hp⟩
    · rfl
    · exact h.placed hp
  case single =>
    intro key p hp a ha c hc heq
    rcases update_eq_some hp with ⟨rfl, rfl⟩ | ⟨-, hp⟩
    · obtain ⟨a', ha', hida, hapia⟩ :=
        @AgentPlan.exists_of_mem_replaceAction q updated b uuid5 hb hid hplan a ha
      obtain ⟨c', hc', hidc, hapic⟩ :=
        @AgentPlan.exists_of_mem_replaceAction q updated b uuid5 hb hid hplan c hc
      rw [← hida, ← hidc]
      exact h.single hq a' ha' c' hc' ((hapia.trans heq).trans hapic.symm)
    · exact h.single hp a ha c hc heq
  case apart =>
    intro key key' p p' hp hp' hne
    rcases update_eq_some hp with ⟨rfl, rfl⟩ | ⟨hkey, hp⟩
    · rcases update_eq_some hp' with ⟨rfl, rfl⟩ | ⟨hkey', hp'⟩
      · exact absurd rfl hne
      · exact (h.apart hq hp' hne).replaceAction hb hid hplan
    · rcases update_eq_some hp' with ⟨rfl, rfl⟩ | ⟨hkey', hp'⟩
      · exact ((h.apart hq hp hne.symm).replaceAction hb hid hplan).symm
      · exact h.apart hp hp' hne
  case told =>
    intro key p hp a ha
    rw [hruns.told_actionState eventName message hmem]
    rcases update_eq_some hp with ⟨rfl, rfl⟩ | ⟨hkey, hp⟩
    · rcases AgentPlan.mem_replaceAction ha with rfl | ⟨hold, hne⟩
      · exact if_pos ⟨rfl, rfl, rfl⟩
      · rw [if_neg]
        · exact h.told hq a hold
        · rintro ⟨-, -, heq⟩
          exact hne ((h.single hq b hb a hold (hupdated.trans heq)).symm.trans hid.symm)
    · rw [if_neg]
      · exact h.told hp a ha
      · rintro ⟨hws, hrun, heq⟩
        exact h.apart hq hp hkey.symm hws hrun b hb a ha (hupdated.trans heq)

end Calls

include h in
/-- The status of a plan is not listed with its actions. -/
theorem withStatus {plan : AgentPlan} (hplan : plans (plan.workspaceId, plan.planId) = some plan)
    (status : PlanStatus) :
    Mirrored runs uuid5 createdAt (update plans (plan.workspaceId, plan.planId)
      (some { plan with status := status })) calls := by
  have hold : ∀ {key p}, update plans (plan.workspaceId, plan.planId)
      (some { plan with status := status }) key = some p → ∃ p', plans key = some p' ∧
        p.actions = p'.actions ∧ p.workspaceId = p'.workspaceId ∧ p.planId = p'.planId ∧
          apiRunId p = apiRunId p' := by
    intro key p hp
    rcases update_eq_some hp with ⟨rfl, rfl⟩ | ⟨-, hp⟩
    · exact ⟨plan, hplan, rfl, rfl, rfl, rfl⟩
    · exact ⟨p, hp, rfl, rfl, rfl, rfl⟩
  constructor
  case placed =>
    intro key p hp
    obtain ⟨p', hp', -, hws, hid, -⟩ := hold hp
    rw [hws, hid]
    exact h.placed hp'
  case single =>
    intro key p hp
    obtain ⟨p', hp', hactions, -⟩ := hold hp
    rw [hactions]
    exact h.single hp'
  case apart =>
    intro key key' p q hp hq hne
    obtain ⟨p', hp', hactions, hws, -, hrun⟩ := hold hp
    obtain ⟨q', hq', hactions', hws', -, hrun'⟩ := hold hq
    unfold AgentPlan.Apart
    rw [hactions, hactions', hws, hws', hrun, hrun']
    exact h.apart hp' hq' hne
  case told =>
    intro key p hp a ha
    obtain ⟨p', hp', hactions, hws, -, hrun⟩ := hold hp
    rw [hws, hrun]
    exact h.told hp' a (hactions ▸ ha)

end Mirrored

end PrismAgent
