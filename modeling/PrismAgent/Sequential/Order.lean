import Mathlib.Data.List.Forall2
import PrismAgent.Application.Planner

/-!
# Plans that run in order

A plan that `createPlan` normalized lists its actions as a chain. While it runs
one action at a time, its COMPLETED actions form an initial segment and what lies
behind the first other action is PENDING. `Orderly` is that invariant and
`Progresses` says how one state of the plan may follow another.
-/

namespace PrismAgent

theorem forall₂_append_left {α β : Type*} {R : α → β → Prop} {as as' : List α} {cs : List β}
    (h : List.Forall₂ R (as ++ as') cs) :
    ∃ bs bs', List.Forall₂ R as bs ∧ List.Forall₂ R as' bs' ∧ cs = bs ++ bs' := by
  induction as generalizing cs with
  | nil => exact ⟨[], cs, .nil, h, rfl⟩
  | cons a as ih =>
      cases h with
      | cons hab htail =>
          obtain ⟨bs, bs', hbs, hbs', rfl⟩ := ih htail
          exact ⟨_ :: bs, bs', .cons hab hbs, hbs', rfl⟩

theorem exists_of_forall₂_right {α β : Type*} {R : α → β → Prop} {as : List α} {bs : List β}
    (h : List.Forall₂ R as bs) {b : β} (hb : b ∈ bs) : ∃ a ∈ as, R a b := by
  induction h with
  | nil => cases hb
  | cons hab _ ih =>
      rcases List.mem_cons.1 hb with rfl | hb
      · exact ⟨_, List.mem_cons_self, hab⟩
      · obtain ⟨a, ha, hR⟩ := ih hb
        exact ⟨a, List.mem_cons_of_mem _ ha, hR⟩

namespace AgentPlan

/-- `p'` is the plan `p` later: with other statuses, but COMPLETED actions are still
COMPLETED. -/
structure Progresses (p p' : AgentPlan) : Prop where
  plan : p' = { p with actions := p'.actions, status := p'.status }
  actions : List.Forall₂
    (fun a b => b = a.withStatus b.status ∧ (a.status = .completed → b.status = .completed))
    p.actions p'.actions

namespace Progresses

variable {p p' p'' : AgentPlan}

theorem refl (p : AgentPlan) : p.Progresses p :=
  ⟨rfl, List.forall₂_same.2 fun _ _ => ⟨rfl, id⟩⟩

theorem trans (h : p.Progresses p') (h' : p'.Progresses p'') : p.Progresses p'' := by
  constructor
  · rw [h'.plan, h.plan]
  · have hactions := h.actions
    have hactions' := h'.actions
    generalize p.actions = as at hactions
    generalize p'.actions = bs at hactions hactions'
    generalize p''.actions = cs at hactions'
    induction hactions generalizing cs with
    | nil =>
        cases hactions'
        exact .nil
    | cons hab _ ih =>
        cases hactions' with
        | cons hbc htail =>
            refine .cons ⟨?_, fun ha => hbc.2 (hab.2 ha)⟩ (ih _ htail)
            rw [hbc.1, hab.1]
            rfl

theorem workspaceId (h : p.Progresses p') : p'.workspaceId = p.workspaceId := by
  rw [h.plan]

theorem planId (h : p.Progresses p') : p'.planId = p.planId := by
  rw [h.plan]

end Progresses

/-- From one status of an action to another, unless COMPLETED is left. -/
theorem progresses_withStatus (p : AgentPlan) (action : PlannedAction)
    {status status' : ActionStatus} (h : status = .completed → status' = .completed) :
    (p.replaceAction (action.withStatus status)).Progresses
      (p.replaceAction (action.withStatus status')) := by
  refine ⟨rfl, ?_⟩
  rw [replaceAction_actions, replaceAction_actions, List.forall₂_map_left_iff,
    List.forall₂_map_right_iff, List.forall₂_same]
  intro a _
  by_cases ha : a.actionId = action.actionId
  · simp only [PlannedAction.withStatus_actionId, ha, if_true]
    exact ⟨rfl, h⟩
  · simp only [PlannedAction.withStatus_actionId, ha, if_false]
    exact ⟨rfl, id⟩

/-- The action may be reached: all actions before it are COMPLETED. -/
def Reached (p : AgentPlan) (actionId : String) : Prop :=
  ∃ pre action post, p.actions = pre ++ action :: post ∧ action.actionId = actionId ∧
    ∀ b ∈ pre, b.status = .completed

/-- What has been reached stays reached. -/
theorem Reached.progress {p p' : AgentPlan} {actionId : String} (h : p.Reached actionId)
    (hp : p.Progresses p') : p'.Reached actionId := by
  obtain ⟨pre, action, post, hsplit, hid, hpre⟩ := h
  have hactions := hp.actions
  rw [hsplit] at hactions
  obtain ⟨pre', rest, hpre', hrest, hsplit'⟩ := forall₂_append_left hactions
  cases hrest with
  | cons haction _ =>
      refine ⟨pre', _, _, hsplit', ?_, fun b hb => ?_⟩
      · rw [haction.1, ← hid]
        rfl
      · obtain ⟨a, ha, hab⟩ := exists_of_forall₂_right hpre' hb
        exact hab.2 (hpre a ha)

/-- The dependencies of the actions are among `seen` and the ids before them. -/
def DependsBackward : List String → List PlannedAction → Prop
  | _, [] => True
  | seen, action :: actions =>
      (∀ d ∈ action.dependsOn, d ∈ seen) ∧
        DependsBackward (action.actionId :: seen) actions

theorem DependsBackward.of_append {seen : List String} {pre post : List PlannedAction}
    {action : PlannedAction} (h : DependsBackward seen (pre ++ action :: post)) :
    ∀ d ∈ action.dependsOn, d ∈ seen ∨ ∃ b ∈ pre, b.actionId = d := by
  induction pre generalizing seen with
  | nil => exact fun d hd => .inl (h.1 d hd)
  | cons first pre ih =>
      intro d hd
      rcases ih h.2 d hd with hseen | ⟨b, hb, hid⟩
      · rcases List.mem_cons.1 hseen with rfl | hseen
        · exact .inr ⟨first, List.mem_cons_self, rfl⟩
        · exact .inl hseen
      · exact .inr ⟨b, List.mem_cons_of_mem _ hb, hid⟩

theorem DependsBackward.congr {R : PlannedAction → PlannedAction → Prop}
    (hR : ∀ a b, R a b → b = a.withStatus b.status) {seen : List String}
    {as bs : List PlannedAction} (h : DependsBackward seen as) (hab : List.Forall₂ R as bs) :
    DependsBackward seen bs := by
  induction hab generalizing seen with
  | nil => trivial
  | cons hfirst _ ih =>
      refine ⟨?_, ?_⟩
      · rw [hR _ _ hfirst]
        exact h.1
      · rw [hR _ _ hfirst]
        exact ih h.2

section StatusOf

variable {actions : List PlannedAction}

theorem statusOf_eq_completed (h : statusOf actions = .completed) :
    ∀ a ∈ actions, a.status = .completed ∨ a.status = .skipped := by
  unfold statusOf at h
  split_ifs at h with hall
  simpa using hall

theorem statusOf_live (h : (statusOf actions).stopped = false) :
    ∀ a ∈ actions, a.status ≠ .failed ∧ a.status ≠ .requiresApproval := by
  unfold statusOf at h
  split_ifs at h with hall hfailed happroval hstale
  all_goals try cases h
  simp only [List.any_eq_true, not_exists, not_and, decide_eq_true_eq] at hfailed happroval
  exact fun a ha => ⟨hfailed a ha, happroval a ha⟩

theorem statusOf_eq_replanRequired (h : statusOf actions = .replanRequired) :
    ∃ a ∈ actions, a.status = .stale := by
  unfold statusOf at h
  split_ifs at h with hall hfailed happroval hstale
  simpa using hstale

end StatusOf

/-- A plan that runs in order, between two deliveries. -/
structure Orderly (p : AgentPlan) : Prop where
  nodup : (p.actions.map (·.actionId)).Nodup
  backward : DependsBackward [] p.actions
  ordered : p.actions.Pairwise fun a b => a.status = .completed ∨ b.status = .pending
  settled : ∀ a ∈ p.actions, a.status = .pending ∨ a.status = .completed ∨
    a.status = .failed ∨ a.status = .requiresApproval
  live : p.status.stopped = false → ∀ a ∈ p.actions, a.status = .pending ∨ a.status = .completed
  done : p.status = .completed → ∀ a ∈ p.actions, a.status = .completed
  no_replan : p.status ≠ .replanRequired

namespace Orderly

variable {p : AgentPlan}

/-- The next pending action has been reached. -/
theorem reached_nextPendingAction (h : p.Orderly) {next : PlannedAction}
    (hnext : p.nextPendingAction = some next) : p.Reached next.actionId := by
  unfold nextPendingAction at hnext
  split at hnext
  · cases hnext
  next hstopped =>
    obtain ⟨-, pre, post, hsplit, hpre⟩ := List.find?_eq_some_iff_append.1 hnext
    refine ⟨pre, next, post, hsplit, rfl, ?_⟩
    have hlive := h.live (by simpa using hstopped)
    -- by induction on the initial segment: behind COMPLETED actions only, a PENDING one
    -- is unblocked and would have been chosen
    suffices hinit : ∀ as bs, pre = as ++ bs → ∀ b ∈ as, b.status = .completed from
      hinit pre [] (List.append_nil pre).symm
    intro as
    induction as using List.reverseRecOn with
    | nil => simp
    | append_singleton as a ih =>
        intro bs has b hb
        have hbefore := ih (a :: bs) (by rw [has, List.append_assoc]; rfl)
        rcases List.mem_append.1 hb with hb | hb
        · exact hbefore b hb
        · rw [List.mem_singleton.1 hb]
          have hmem : a ∈ pre := by
            rw [has]
            simp
          have hactions : p.actions = as ++ a :: (bs ++ next :: post) := by
            rw [hsplit, has]
            simp
          refine (hlive a ?_).resolve_left fun hpending => ?_
          · rw [hactions]
            simp
          · have hblocked : ¬ a.isUnblocked p.completedActionIds = true := by
              have hnot := hpre a hmem
              rw [hpending] at hnot
              intro hunblocked
              rw [hunblocked] at hnot
              cases hnot
            rw [PlannedAction.isUnblocked_iff] at hblocked
            apply hblocked
            intro d hd
            have hbackward := h.backward
            rw [hactions] at hbackward
            obtain hseen | ⟨c, hc, hid⟩ := hbackward.of_append d hd
            · cases hseen
            · refine mem_completedActionIds.2 ⟨c, ?_, hbefore c hc, hid⟩
              rw [hactions]
              exact List.mem_append_left _ hc

/-- In a plan that runs, the first action that is not COMPLETED is the next one. -/
theorem nextPendingAction_eq (h : p.Orderly) (hlive : p.status.stopped = false)
    {pre post : List PlannedAction} {action : PlannedAction}
    (hsplit : p.actions = pre ++ action :: post) (hpre : ∀ b ∈ pre, b.status = .completed)
    (hpending : action.status = .pending) : p.nextPendingAction = some action := by
  have hunblocked : action.isUnblocked p.completedActionIds = true := by
    rw [PlannedAction.isUnblocked_iff]
    intro d hd
    have hbackward := h.backward
    rw [hsplit] at hbackward
    rcases hbackward.of_append d hd with hseen | ⟨b, hb, hid⟩
    · cases hseen
    · refine mem_completedActionIds.2 ⟨b, ?_, hpre b hb, hid⟩
      rw [hsplit]
      exact List.mem_append_left _ hb
  have hnone : pre.find? (fun a =>
      a.status = .pending && a.isUnblocked p.completedActionIds) = none := by
    rw [List.find?_eq_none]
    intro b hb
    simp [hpre b hb]
  unfold nextPendingAction
  rw [hlive, if_neg (by simp)]
  rw [hsplit, List.find?_append, hnone, List.find?_cons]
  simp [hpending, hunblocked]

section Settle

variable {pre post : List PlannedAction} {action : PlannedAction}

/-- An action of the plan is the one found under its id. -/
theorem getAction_eq (h : p.Orderly) (hsplit : p.actions = pre ++ action :: post) :
    p.getAction action.actionId = some action := by
  have hnodup := h.nodup
  rw [hsplit, List.map_append, List.map_cons, List.nodup_append] at hnodup
  obtain ⟨-, -, hdisjoint⟩ := hnodup
  have hpre : pre.find? (fun a => a.actionId = action.actionId) = none := by
    rw [List.find?_eq_none]
    intro a ha
    simpa using hdisjoint _ (List.mem_map_of_mem ha) _ List.mem_cons_self
  unfold getAction
  rw [hsplit, List.find?_append, hpre]
  simp

/-- Only the settled action changes. -/
theorem replaceAction_actions_eq (h : p.Orderly) (hsplit : p.actions = pre ++ action :: post)
    (status : ActionStatus) :
    (p.replaceAction (action.withStatus status)).actions =
      pre ++ action.withStatus status :: post :=
  replaceAction_actions_of_nodup h.nodup hsplit rfl

/-- What is COMPLETED after an action was settled. -/
theorem completed_replaceAction (h : p.Orderly) (hsplit : p.actions = pre ++ action :: post)
    (hpending : action.status = .pending) (status : ActionStatus) (actionId : String) :
    (∃ a ∈ (p.replaceAction (action.withStatus status)).actions,
      a.actionId = actionId ∧ a.status = .completed) ↔
      (actionId = action.actionId ∧ status = .completed) ∨
        ∃ a ∈ p.actions, a.actionId = actionId ∧ a.status = .completed := by
  rw [h.replaceAction_actions_eq hsplit, hsplit]
  simp only [List.mem_append, List.mem_cons]
  constructor
  · rintro ⟨a, ha | rfl | ha, hid, hcompleted⟩
    · exact .inr ⟨a, .inl ha, hid, hcompleted⟩
    · exact .inl ⟨hid.symm, hcompleted⟩
    · exact .inr ⟨a, .inr (.inr ha), hid, hcompleted⟩
  · rintro (⟨rfl, rfl⟩ | ⟨a, ha | rfl | ha, hid, hcompleted⟩)
    · exact ⟨_, .inr (.inl rfl), rfl, rfl⟩
    · exact ⟨a, .inl ha, hid, hcompleted⟩
    · rw [hpending] at hcompleted
      cases hcompleted
    · exact ⟨a, .inr (.inr ha), hid, hcompleted⟩

theorem progresses_replaceAction (h : p.Orderly) (hsplit : p.actions = pre ++ action :: post)
    (hpending : action.status = .pending) (status : ActionStatus) :
    p.Progresses (p.replaceAction (action.withStatus status)) := by
  refine ⟨rfl, ?_⟩
  rw [h.replaceAction_actions_eq hsplit, hsplit]
  have hrefl : ∀ as : List PlannedAction, List.Forall₂ (fun a b => b = a.withStatus b.status ∧
      (a.status = .completed → b.status = .completed)) as as :=
    fun as => List.forall₂_same.2 fun _ _ => ⟨rfl, id⟩
  refine List.rel_append (hrefl pre) (.cons ⟨rfl, fun hcompleted => ?_⟩ (hrefl post))
  rw [hpending] at hcompleted
  cases hcompleted

/-- Settling the next action keeps the order. -/
theorem settle (h : p.Orderly) (hsplit : p.actions = pre ++ action :: post)
    (hpre : ∀ b ∈ pre, b.status = .completed) (hpending : action.status = .pending)
    {status : ActionStatus} (hstatus : status = .pending ∨ status = .completed ∨
      status = .failed ∨ status = .requiresApproval) :
    (p.replaceAction (action.withStatus status)).Orderly := by
  have hactions := h.replaceAction_actions_eq hsplit status
  have hprogress := h.progresses_replaceAction hsplit hpending status
  have hordered := h.ordered
  rw [hsplit, List.pairwise_append, List.pairwise_cons] at hordered
  obtain ⟨hordered_pre, ⟨hbehind, hordered_post⟩, -⟩ := hordered
  have hpost : ∀ b ∈ post, b.status = .pending := fun b hb =>
    (hbehind b hb).resolve_left (by simp [hpending])
  have hsettled : ∀ a ∈ (p.replaceAction (action.withStatus status)).actions,
      a.status = .pending ∨ a.status = .completed ∨ a.status = .failed ∨
        a.status = .requiresApproval := by
    intro a ha
    rw [hactions, List.mem_append, List.mem_cons] at ha
    rcases ha with ha | rfl | ha
    · exact .inr (.inl (hpre a ha))
    · exact hstatus
    · exact .inl (hpost a ha)
  refine ⟨?_, ?_, ?_, hsettled, fun hlive a ha => ?_, fun hdone a ha => ?_, fun hreplan => ?_⟩
  · have hids := h.nodup
    rw [hsplit] at hids
    rw [hactions]
    simpa using hids
  · exact h.backward.congr (fun a b hab => hab.1) hprogress.actions
  · rw [hactions, List.pairwise_append, List.pairwise_cons]
    refine ⟨hordered_pre, ⟨fun b hb => .inr (hpost b hb), hordered_post⟩, fun a ha b _ => ?_⟩
    exact .inl (hpre a ha)
  · obtain ⟨hfailed, happroval⟩ := statusOf_live hlive a ha
    rcases hsettled a ha with ha | ha | ha | ha
    · exact .inl ha
    · exact .inr ha
    · exact absurd ha hfailed
    · exact absurd ha happroval
  · rcases statusOf_eq_completed hdone a ha with hcompleted | hskipped
    · exact hcompleted
    · have := hsettled a ha
      simp [hskipped] at this
  · obtain ⟨a, ha, hstale⟩ := statusOf_eq_replanRequired hreplan
    have := hsettled a ha
    simp [hstale] at this

/-- Failing a plan keeps the order. -/
theorem fail (h : p.Orderly) : ({ p with status := .failed } : AgentPlan).Orderly where
  nodup := h.nodup
  backward := h.backward
  ordered := h.ordered
  settled := h.settled
  live hlive := by cases hlive
  done hdone := by cases hdone
  no_replan := by simp

end Settle

end Orderly

end AgentPlan

namespace Planner

theorem dependsBackward_normalizeActions (form : NormalForm) (actions : List PlannedAction)
    (index : ℕ) {previousActionId : Option String} {seen : List String}
    (hseen : ∀ id, previousActionId = some id → id ∈ seen) :
    AgentPlan.DependsBackward seen
      (normalizeActions form actions index previousActionId) := by
  induction actions generalizing index previousActionId seen with
  | nil => trivial
  | cons action actions ih =>
      refine ⟨?_, ih (index + 1) ?_⟩
      · intro d hd
        cases previousActionId with
        | none => cases hd
        | some id =>
            by_cases hempty : id = ""
            · simp [hempty] at hd
            · have hid : d = id := by simpa [hempty] using hd
              rw [hid]
              exact hseen id rfl
      · rintro id ⟨⟩
        exact List.mem_cons_self

theorem pending_normalizeActions (form : NormalForm) (actions : List PlannedAction)
    (index : ℕ) (previousActionId : Option String) :
    ∀ a ∈ normalizeActions form actions index previousActionId, a.status = .pending := by
  induction actions generalizing index previousActionId with
  | nil => simp [normalizeActions]
  | cons action actions ih =>
      intro a ha
      rcases List.mem_cons.1 ha with rfl | ha
      · rfl
      · exact ih _ _ a ha

/-- A normalized plan with distinct action ids is ready to run in order. -/
theorem normalizePlanForRuntime_orderly {form : NormalForm} {plan : AgentPlan}
    (hnodup : ((normalizePlanForRuntime form plan).actions.map (·.actionId)).Nodup) :
    (normalizePlanForRuntime form plan).Orderly := by
  have hpending := pending_normalizeActions form plan.actions 1 none
  refine ⟨hnodup, dependsBackward_normalizeActions _ _ 1 (by simp), ?_, ?_, ?_, ?_, ?_⟩
  · exact List.pairwise_of_forall_mem_list fun _ _ b hb => .inr (hpending b hb)
  · exact fun a ha => .inl (hpending a ha)
  · exact fun _ a ha => .inl (hpending a ha)
  · rintro ⟨⟩
  · rintro ⟨⟩

end Planner

end PrismAgent
