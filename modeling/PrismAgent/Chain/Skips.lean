import PrismAgent.Chain.Running

/-!
# Chains with skipped actions

The actions of a normalized plan form a chain, and they become COMPLETED or SKIPPED in any
order. What is SKIPPED counts as finished for the status of the plan and for the handler, but
not for the action behind it. So the plan moves on exactly as long as some PENDING action
stands at the start of the chain or behind a COMPLETED one.
-/

namespace PrismAgent

open Effect ActionEventHandler

/-- An action is set COMPLETED or SKIPPED. -/
structure Finish where
  actionId : String
  status : ActionStatus
  finishes : status = .completed ∨ status = .skipped

namespace AgentPlan

def finish (plan : AgentPlan) (update : Finish) : AgentPlan :=
  match plan.getAction update.actionId with
  | some action => plan.replaceAction (action.withStatus update.status)
  | none => plan

/-- The plan after the updates, one after the other. -/
def finishAll (plan : AgentPlan) (updates : List Finish) : AgentPlan :=
  updates.foldl finish plan

/-- What an action depends on that stands behind another one. -/
def dependsBehind (previousActionId : Option String) : List String :=
  match previousActionId with
  | some id => if id = "" then [] else [id]
  | none => []

/-- The PENDING actions depend on the ones before them. -/
def LinkedBehind : Option String → List PlannedAction → Prop
  | _, [] => True
  | previousActionId, action :: actions =>
      (action.status = .pending → action.dependsOn = dependsBehind previousActionId) ∧
        LinkedBehind (some action.actionId) actions

theorem LinkedBehind.dependsOn {previousActionId : Option String} {pre post : List PlannedAction}
    {previous action : PlannedAction}
    (h : LinkedBehind previousActionId (pre ++ previous :: action :: post))
    (hpending : action.status = .pending) :
    action.dependsOn = dependsBehind (some previous.actionId) := by
  induction pre generalizing previousActionId with
  | nil => exact h.2.1 hpending
  | cons first pre ih => exact ih h.2

/-- Replacing actions by one that is not PENDING keeps the links. -/
theorem LinkedBehind.replace {previousActionId : Option String} {actions : List PlannedAction}
    (h : LinkedBehind previousActionId actions) {updated : PlannedAction}
    (hupdated : updated.status ≠ .pending) :
    LinkedBehind previousActionId (actions.map fun action =>
      if action.actionId = updated.actionId then updated else action) := by
  induction actions generalizing previousActionId with
  | nil => trivial
  | cons action actions ih =>
      rw [List.map_cons]
      by_cases hid : action.actionId = updated.actionId
      · rw [if_pos hid]
        refine ⟨fun hpending => absurd hpending hupdated, ?_⟩
        have hrest := ih h.2
        rwa [hid] at hrest
      · rw [if_neg hid]
        exact ⟨h.1, ih h.2⟩

/-- A chain in which actions were finished. -/
structure Chained (plan : AgentPlan) : Prop where
  linked : LinkedBehind none plan.actions
  alike : ∀ a ∈ plan.actions, ∀ b ∈ plan.actions, a.actionId = b.actionId → a.status = b.status
  statuses : ∀ a ∈ plan.actions, a.status = .pending ∨ a.status = .completed ∨ a.status = .skipped
  status : plan.status = .planned ∨ plan.status = statusOf plan.actions

/-- Some PENDING action stands at the start of the chain or directly behind a COMPLETED one.
Behind an empty id the chain starts anew. -/
def Ready (plan : AgentPlan) : Prop :=
  ∃ action, action.status = .pending ∧
    ((∃ post, plan.actions = action :: post) ∨
      ∃ pre previous post, plan.actions = pre ++ previous :: action :: post ∧
        (previous.actionId = "" ∨ previous.status = .completed))

/-- The update skips no action with a PENDING one directly behind it. -/
def SkipsNoPredecessor (plan : AgentPlan) (update : Finish) : Prop :=
  update.status = .skipped → ∀ pre previous action post,
    plan.actions = pre ++ previous :: action :: post → previous.actionId = update.actionId →
      action.actionId ≠ update.actionId → action.status ≠ .pending

namespace Chained

variable {plan : AgentPlan}

theorem normalizePlanForRuntime (form : Planner.NormalForm) (proposed : AgentPlan) :
    (Planner.normalizePlanForRuntime form proposed).Chained := by
  have hpending := Planner.pending_normalizeActions form proposed.actions 1 none
  have hlinked : ∀ (actions : List PlannedAction) (index : ℕ) (previousActionId : Option String),
      LinkedBehind previousActionId
        (Planner.normalizeActions form actions index previousActionId) := by
    intro actions
    induction actions with
    | nil => exact fun _ _ => trivial
    | cons action actions ih => exact fun index previousActionId => ⟨fun _ => rfl, ih _ _⟩
  exact {
    linked := hlinked proposed.actions 1 none
    alike := fun a ha b hb _ => (hpending a ha).trans (hpending b hb).symm
    statuses := fun a ha => .inl (hpending a ha)
    status := .inl rfl }

theorem finish (h : plan.Chained) (update : Finish) : (plan.finish update).Chained := by
  unfold AgentPlan.finish
  cases haction : plan.getAction update.actionId with
  | none => exact h
  | some action =>
      have hfinished : (action.withStatus update.status).status ≠ .pending := by
        rcases update.finishes with hstatus | hstatus <;> simp [hstatus]
      have hreplaced : ∀ a ∈ (plan.replaceAction (action.withStatus update.status)).actions,
          (a.actionId = action.actionId ∧ a.status = update.status) ∨
            (a.actionId ≠ action.actionId ∧ a ∈ plan.actions) := by
        intro a ha
        obtain ⟨b, hb, rfl⟩ := List.mem_map.1 ha
        split
        · exact .inl ⟨rfl, rfl⟩
        next hne => exact .inr ⟨hne, hb⟩
      exact {
        linked := h.linked.replace hfinished
        alike := by
          intro a ha b hb hid
          rcases hreplaced a ha with ⟨hida, hsa⟩ | ⟨hida, ha⟩ <;>
            rcases hreplaced b hb with ⟨hidb, hsb⟩ | ⟨hidb, hb⟩
          · exact hsa.trans hsb.symm
          · exact absurd (hid.symm.trans hida) hidb
          · exact absurd (hid.trans hidb) hida
          · exact h.alike a ha b hb hid
        statuses := by
          intro a ha
          rcases hreplaced a ha with ⟨-, hstatus⟩ | ⟨-, ha⟩
          · rw [hstatus]
            exact .inr update.finishes
          · exact h.statuses a ha
        status := .inr rfl }

theorem finishAll (h : plan.Chained) (updates : List Finish) :
    (plan.finishAll updates).Chained := by
  induction updates generalizing plan with
  | nil => exact h
  | cons update updates ih => exact ih (h.finish update)

/-- With a PENDING action left, the plan has not stopped. -/
theorem not_stopped (h : plan.Chained) {action : PlannedAction} (haction : action ∈ plan.actions)
    (hpending : action.status = .pending) : plan.status.stopped = false := by
  have hnone : ∀ status, status ≠ .pending → status ≠ .completed → status ≠ .skipped →
      (plan.actions.any fun a => a.status = status) = false := by
    intro status hp hc hs
    rw [List.any_eq_false]
    intro a ha
    rw [decide_eq_true_eq]
    rintro rfl
    rcases h.statuses a ha with ha | ha | ha
    · exact hp ha
    · exact hc ha
    · exact hs ha
  have hleft :
      ¬ (plan.actions.all fun a => a.status = .completed ∨ a.status = .skipped) = true := by
    rw [List.all_eq_true]
    intro hall
    have hfinished := hall action haction
    rw [hpending] at hfinished
    cases hfinished
  have hrunning : statusOf plan.actions = .running := by
    unfold statusOf
    rw [if_neg hleft, hnone .failed (by simp) (by simp) (by simp),
      hnone .requiresApproval (by simp) (by simp) (by simp),
      hnone .stale (by simp) (by simp) (by simp)]
    rfl
  rcases h.status with hstatus | hstatus
  · rw [hstatus]
    rfl
  · rw [hstatus, hrunning]
    rfl

/-- An action behind another one is unblocked when the other one is COMPLETED. -/
theorem unblocked_iff (h : plan.Chained) {pre post : List PlannedAction}
    {previous action : PlannedAction} (hsplit : plan.actions = pre ++ previous :: action :: post)
    (hpending : action.status = .pending) :
    action.isUnblocked plan.completedActionIds = true ↔
      previous.actionId = "" ∨ previous.status = .completed := by
  have hlinked := h.linked
  rw [hsplit] at hlinked
  have hprevious : previous ∈ plan.actions := by
    rw [hsplit]
    exact List.mem_append_right _ List.mem_cons_self
  rw [PlannedAction.isUnblocked_iff, hlinked.dependsOn hpending, dependsBehind]
  by_cases hempty : previous.actionId = ""
  · simp [hempty]
  · rw [if_neg hempty, List.forall_mem_singleton, mem_completedActionIds, or_iff_right hempty]
    constructor
    · rintro ⟨a, ha, hcompleted, hid⟩
      exact (h.alike a ha previous hprevious hid).symm.trans hcompleted
    · exact fun hcompleted => ⟨previous, hprevious, hcompleted, rfl⟩

/-- There is a next action exactly when the chain is ready. -/
theorem nextPendingAction_iff (h : plan.Chained) :
    (∃ next, plan.nextPendingAction = some next) ↔ plan.Ready := by
  constructor
  · rintro ⟨next, hnext⟩
    obtain ⟨-, hmem, hpending, hdepends⟩ := nextPendingAction_eq_some hnext
    obtain ⟨pre, post, hsplit⟩ := List.mem_iff_append.1 hmem
    refine ⟨next, hpending, ?_⟩
    rcases List.eq_nil_or_concat pre with rfl | ⟨before, previous, rfl⟩
    · exact .inl ⟨post, hsplit⟩
    · have hbehind : plan.actions = before ++ previous :: next :: post := by
        rw [hsplit, List.concat_eq_append, List.append_assoc]
        rfl
      exact .inr ⟨before, previous, post, hbehind,
        (h.unblocked_iff hbehind hpending).1 ((PlannedAction.isUnblocked_iff _ _).2 hdepends)⟩
  · rintro ⟨action, hpending, hready⟩
    obtain ⟨hmem, hunblocked⟩ : action ∈ plan.actions ∧
        action.isUnblocked plan.completedActionIds = true := by
      rcases hready with ⟨post, hsplit⟩ | ⟨pre, previous, post, hsplit, hdone⟩
      · have hlinked := h.linked
        rw [hsplit] at hlinked
        refine ⟨by rw [hsplit]; exact List.mem_cons_self, ?_⟩
        rw [PlannedAction.isUnblocked_iff, hlinked.1 hpending]
        exact List.forall_mem_nil _
      · refine ⟨?_, (h.unblocked_iff hsplit hpending).2 hdone⟩
        rw [hsplit]
        simp
    have hfound : (plan.actions.find? fun a =>
        a.status = .pending && a.isUnblocked plan.completedActionIds).isSome := by
      rw [List.find?_isSome]
      exact ⟨action, hmem, by simp [hpending, hunblocked]⟩
    unfold nextPendingAction
    rw [h.not_stopped hmem hpending, if_neg Bool.false_ne_true]
    exact Option.isSome_iff_exists.1 hfound

end Chained

/-- No PENDING action stands directly behind a SKIPPED one. -/
def NoneBehindSkipped (plan : AgentPlan) : Prop :=
  ∀ pre previous action post, plan.actions = pre ++ previous :: action :: post →
    action.status = .pending → previous.status ≠ .skipped

/-- An update that skips no predecessor leaves no PENDING action behind a SKIPPED one. -/
theorem NoneBehindSkipped.finish {plan : AgentPlan} (h : plan.NoneBehindSkipped)
    {update : Finish} (hupdate : plan.SkipsNoPredecessor update) :
    (plan.finish update).NoneBehindSkipped := by
  unfold AgentPlan.finish
  cases haction : plan.getAction update.actionId with
  | none => exact h
  | some finished =>
      have hid := getAction_actionId haction
      intro pre previous action post hsplit hpending hskipped
      rw [replaceAction_actions] at hsplit
      obtain ⟨pre', rest, hactions, -, hrest⟩ := List.map_eq_append_iff.1 hsplit
      obtain ⟨previous', rest', rfl, hprevious, hrest⟩ := List.map_eq_cons_iff.1 hrest
      obtain ⟨action', post', rfl, haction', -⟩ := List.map_eq_cons_iff.1 hrest
      -- the action behind is PENDING, so it is not the one that was finished
      split at haction'
      next =>
        rw [← haction'] at hpending
        rcases update.finishes with hstatus | hstatus <;> simp [hstatus] at hpending
      next hne =>
        subst haction'
        split at hprevious
        next heq =>
          rw [← hprevious] at hskipped
          exact hupdate hskipped pre' previous' action' post' hactions (heq.trans hid)
            (fun h' => hne (h'.trans hid.symm)) hpending
        next =>
          subst hprevious
          exact h pre' previous' action' post' hactions hpending hskipped

/-- With no PENDING action behind a SKIPPED one, the first PENDING action is ready. -/
theorem Chained.ready {plan : AgentPlan} (h : plan.Chained) (hskips : plan.NoneBehindSkipped)
    {action : PlannedAction} (haction : action ∈ plan.actions)
    (hpending : action.status = .pending) : plan.Ready := by
  obtain ⟨first, hfirst⟩ : ∃ first,
      plan.actions.find? (fun a => a.status = .pending) = some first :=
    Option.isSome_iff_exists.1 (List.find?_isSome.2 ⟨action, haction, by simp [hpending]⟩)
  obtain ⟨hstatus, pre, post, hsplit, hbefore⟩ := List.find?_eq_some_iff_append.1 hfirst
  rw [decide_eq_true_eq] at hstatus
  refine ⟨first, hstatus, ?_⟩
  rcases List.eq_nil_or_concat pre with rfl | ⟨before, previous, rfl⟩
  · exact .inl ⟨post, hsplit⟩
  · rw [List.concat_eq_append] at hsplit hbefore
    have hbehind : plan.actions = before ++ previous :: first :: post := by
      rw [hsplit, List.append_assoc]
      rfl
    have hmem : previous ∈ plan.actions := by
      rw [hbehind]
      exact List.mem_append_right _ List.mem_cons_self
    refine .inr ⟨before, previous, post, hbehind, .inr ?_⟩
    rcases h.statuses previous hmem with hprevious | hprevious | hprevious
    · have hnot := hbefore previous (List.mem_append_right _ List.mem_cons_self)
      simp [hprevious] at hnot
    · exact hprevious
    · exact absurd hprevious (hskips before previous first post hbehind hstatus)

/-- While an action is PENDING, a next one is selected, and the handling of an event for a
finished action continues with it, in whatever store the plan is loaded from. -/
def MovesOn (plan : AgentPlan) : Prop :=
  (∃ action ∈ plan.actions, action.status = .pending) →
    (∃ next, plan.nextPendingAction = some next) ∧
    ∀ {σ : Type} [StateStore σ] (env : Env) (inline : Bool) (envelope : EventEnvelope)
      (w : World σ) (planId actionId : String) (action : PlannedAction),
      envelope.event.kind = .agentAction planId actionId →
      loadPlan env w envelope planId = some plan → plan.getAction actionId = some action →
      action.status = .completed ∨ action.status = .skipped →
      ∃ next, AsksForNext plan next ∧
        ((env.sem.exec (handleOne inline envelope) w).1 = .ok (some next) ∨
          (env.sem.exec (handleOne inline envelope) w).1 = .ok none ∧
            (env.sem.exec (handleOne inline envelope) w).2.queue = w.queue ++ [next])

end AgentPlan

section Handling

variable {σ : Type} [StateStore σ] {env : Env} {inline : Bool} {envelope : EventEnvelope}
  {w : World σ} {planId actionId : String} {plan : AgentPlan} {action next : PlannedAction}

/-- A call that is answered, and what follows. -/
theorem wp_answered {β : Type} {call : Call} {a : call.Answer} {k : call.Answer → App β}
    {Q : Except Exc β → World σ → Prop} (hanswer : (env.sem call w).1 = .ok a)
    (hk : (k a).wp env.sem.step Q (env.sem call w).2) :
    (perform call >>= k).wp env.sem.step Q w := by
  rw [Program.wp_bind, Program.wp_perform_step, hanswer]
  exact hk

/-- The handling of a finished action goes on to the next one of the plan. -/
theorem handleOne_finished (hkind : envelope.event.kind = .agentAction planId actionId)
    (hplan : loadPlan env w envelope planId = some plan)
    (haction : plan.getAction actionId = some action)
    (hfinished : action.status = .completed ∨ action.status = .skipped)
    (hnext : plan.nextPendingAction = some next) :
    ∃ e, AsksForNext plan e ∧
      ((env.sem.exec (handleOne inline envelope) w).1 = .ok (some e) ∨
        (env.sem.exec (handleOne inline envelope) w).1 = .ok none ∧
          (env.sem.exec (handleOne inline envelope) w).2.queue = w.queue ++ [e]) := by
  have hpending : action.status ≠ .pending := by
    rcases hfinished with hstatus | hstatus <;> simp [hstatus]
  have hanswer : (env.sem (.getPlan envelope.event.workspaceId planId) w).1 = .ok (some plan) :=
    congrArg Except.ok hplan
  refine (Program.wp_step_iff env.sem w (handleOne inline envelope) fun r t =>
    ∃ e, AsksForNext plan e ∧ (r = .ok (some e) ∨ r = .ok none ∧ t.queue = w.queue ++ [e])).1 ?_
  unfold handleOne handleAction selectAction
  rw [hkind]
  dsimp only
  rw [Program.wp_bind]
  refine wp_answered hanswer ?_
  dsimp only
  rw [haction]
  dsimp only
  rw [if_pos hpending]
  change (skipAction inline envelope plan action).wp env.sem.step _ _
  unfold skipAction enqueueNextAction
  rw [if_pos hfinished, hnext]
  refine wp_answered (a := ()) rfl (wp_answered rfl ?_)
  dsimp only
  split
  · exact wp_answered (a := ()) rfl ⟨_, ⟨next, hnext, rfl, rfl⟩, .inl rfl⟩
  · exact wp_answered (a := ()) rfl (wp_answered (a := ()) rfl
      ⟨_, ⟨next, hnext, rfl, rfl⟩, .inr ⟨rfl, rfl⟩⟩)

end Handling

namespace AgentPlan

variable {plan : AgentPlan}

/-- A chain moves on exactly as long as it is ready. -/
theorem Chained.movesOn_iff (h : plan.Chained) :
    plan.MovesOn ↔ ((∃ action ∈ plan.actions, action.status = .pending) → plan.Ready) := by
  constructor
  · intro hmoves hpending
    exact h.nextPendingAction_iff.1 (hmoves hpending).1
  · intro hready hpending
    have hselected := h.nextPendingAction_iff.2 (hready hpending)
    obtain ⟨next, hnext⟩ := hselected
    exact ⟨⟨next, hnext⟩, fun env inline envelope w planId actionId action hkind hplan haction
      hfinished => handleOne_finished hkind hplan haction hfinished hnext⟩

/-- Every update of the run skips no action with a PENDING one directly behind it. -/
def SkipsNoPredecessors (plan : AgentPlan) (updates : List Finish) : Prop :=
  ∀ before update after, updates = before ++ update :: after →
    (plan.finishAll before).SkipsNoPredecessor update

theorem finishAll_concat (updates : List Finish) (update : Finish) :
    plan.finishAll (updates ++ [update]) = (plan.finishAll updates).finish update :=
  List.foldl_concat _ _ _ _

/-- In a run that skips no predecessors, no PENDING action comes to stand behind a SKIPPED
one. -/
theorem NoneBehindSkipped.finishAll (h : plan.NoneBehindSkipped) {updates : List Finish}
    (hrun : plan.SkipsNoPredecessors updates) : (plan.finishAll updates).NoneBehindSkipped := by
  induction updates using List.reverseRecOn with
  | nil => exact h
  | append_singleton updates update ih =>
      rw [finishAll_concat]
      refine NoneBehindSkipped.finish (ih fun before other after hsplit => ?_)
        (hrun updates update [] rfl)
      refine hrun before other (after ++ [update]) ?_
      rw [hsplit, List.append_assoc]
      rfl

/-- After any updates a normalized plan moves on exactly if some PENDING action is ready, or
none is PENDING; and in a run that skips no action with a PENDING one directly behind it, it
moves on in every state. -/
theorem chain_moves_on_iff (form : Planner.NormalForm) (proposed : AgentPlan)
    (updates : List Finish) :
    (((Planner.normalizePlanForRuntime form proposed).finishAll updates).MovesOn ↔
      ((∃ action ∈ ((Planner.normalizePlanForRuntime form proposed).finishAll updates).actions,
          action.status = .pending) →
        ((Planner.normalizePlanForRuntime form proposed).finishAll updates).Ready)) ∧
    ((Planner.normalizePlanForRuntime form proposed).SkipsNoPredecessors updates →
      ∀ before after, updates = before ++ after →
        ((Planner.normalizePlanForRuntime form proposed).finishAll before).MovesOn) := by
  have hchained := Chained.normalizePlanForRuntime form proposed
  refine ⟨(hchained.finishAll updates).movesOn_iff, ?_⟩
  rintro hrun before after rfl
  have hbefore : (Planner.normalizePlanForRuntime form proposed).SkipsNoPredecessors before := by
    intro earlier update later hsplit
    refine hrun earlier update (later ++ after) ?_
    rw [hsplit, List.append_assoc]
    rfl
  have hnone : (Planner.normalizePlanForRuntime form proposed).NoneBehindSkipped := by
    intro pre previous action post hsplit _ hskipped
    have hpending := Planner.pending_normalizeActions form proposed.actions 1 none previous (by
      change previous ∈ (Planner.normalizePlanForRuntime form proposed).actions
      rw [hsplit]
      exact List.mem_append_right _ List.mem_cons_self)
    rw [hpending] at hskipped
    cases hskipped
  refine (hchained.finishAll before).movesOn_iff.2 ?_
  rintro ⟨action, haction, hpending⟩
  exact (hchained.finishAll before).ready (hnone.finishAll hbefore) haction hpending

/-- Of a plan of two actions the first one is skipped. -/
def skipFirst : Finish where
  actionId := "a"
  status := .skipped
  finishes := .inr rfl

/-- The action behind the skipped one is PENDING, and the plan does not move on. -/
theorem skipped_action_blocks :
    ¬ ((Planner.normalizePlanForRuntime sampleForm sampleProposal).finishAll
      [skipFirst]).MovesOn := by
  intro hmoves
  obtain ⟨⟨next, hnext⟩, -⟩ := hmoves (by decide)
  have hnone : ((Planner.normalizePlanForRuntime sampleForm sampleProposal).finishAll
      [skipFirst]).nextPendingAction = none := by decide
  rw [hnone] at hnext
  cases hnext

end AgentPlan

end PrismAgent
