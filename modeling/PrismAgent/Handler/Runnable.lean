import PrismAgent.Handler.Entry

/-!
# Which actions execute

`handle` does not look at the plan status or the dependencies of the action it
is asked for. `runsRunnable_iff` says for which stored plans, reports of the API
and events an entry executes runnable actions only and leaves a cancelled plan
alone. The checks for a PENDING action and an unrecorded key do their part: what
is left to ask is that the loaded plan has not stopped and does not block the
action.
-/

namespace PrismAgent

open Effect

namespace ActionEventHandler

variable {σ : Type} [StateStore σ]

/-- The action may run in the plan: the plan has not stopped, the action is
PENDING and its dependencies are COMPLETED. -/
def Runnable (plan : AgentPlan) (action : PlannedAction) : Prop :=
  plan.status.stopped = false ∧ action.status = .pending ∧
    ∀ d ∈ action.dependsOn, d ∈ plan.completedActionIds

/-- The entry executes runnable actions only, and writes no other status over a
plan that it loads as CANCELLED. -/
def RunsRunnable (env : Env) (inline : Bool) (envelope : EventEnvelope) (w : World σ) : Prop :=
  let after := (env.sem.exec (handleOne inline envelope) w).2
  (∀ x ∈ after.executions.drop w.executions.length, Runnable x.plan x.action) ∧
    ∀ planId actionId plan, envelope.event.kind = .agentAction planId actionId →
      loadPlan env w envelope planId = some plan → plan.status = .cancelled →
      ∀ written ∈ after.planWrites.drop w.planWrites.length, written.status = .cancelled

section Condition

variable (env : Env) (w : World σ) (envelope : EventEnvelope)

/-- The context of a plan, with the store after it: it is read after the plan. -/
def loadContext (planId snapshotRef : String) : Option ContextSnapshot × σ :=
  StateStore.getContextSnapshot (env.stateApi (w.tick + 1)) envelope.event.workspaceId
    snapshotRef
    (StateStore.getPlan (env.stateApi w.tick) envelope.event.workspaceId planId w.store).2

/-- Whether the key is recorded: it is looked up after the plan and its context. -/
def keyRecorded (planId snapshotRef key : String) : Bool :=
  (StateStore.checkIdempotencyKey (env.stateApi (w.tick + 2)) key
    (loadContext env w envelope planId snapshotRef).2).1

/-- The event asks for the action of `d`: the action is PENDING in the plan as the
store and the API give it, the context of the plan is stored and the key of the
action is not recorded. -/
structure AsksFor (planId actionId : String) (d : Delivery) : Prop where
  kind : envelope.event.kind = .agentAction planId actionId
  delivered : d.envelope = envelope
  plan : loadPlan env w envelope planId = some d.plan
  action : d.plan.getAction actionId = some d.action
  pending : d.action.status = .pending
  context : ∃ snapshot, (loadContext env w envelope planId d.plan.contextSnapshotRef).1 =
    some snapshot ∧ d.context = snapshot.context
  unrecorded : keyRecorded env w envelope planId d.plan.contextSnapshotRef
    d.action.idempotencyKey = false

/-- The context permits the tool, the entities that the action expects have their
versions still and no approval is required. -/
structure Delivery.Cleared (d : Delivery) (tick : ℕ) : Prop where
  permitted : (d.context.permissions.lookup d.action.toolName).getD true = true
  fresh : StaleContextPolicy.diff d.action.expectedEntityVersions
    (env.currentEntityVersions tick d.context.workspaceId d.context.projectId
      (d.action.expectedEntityVersions.map Prod.fst)) = []
  approved : d.action.requiresApproval = false

/-- No action is asked for in a CANCELLED plan, and one that is cleared has its
dependencies COMPLETED in a plan that has not stopped. -/
def AsksForRunnable : Prop :=
  ∀ planId actionId d, AsksFor env w envelope planId actionId d →
    d.plan.status ≠ .cancelled ∧
      (d.Cleared env (w.tick + 4) → d.plan.status.stopped = false ∧
        ∀ id ∈ d.action.dependsOn, id ∈ d.plan.completedActionIds)

end Condition

/-- From `w` to `w'` the handler wrote at least `count` plans, none of them
CANCELLED, and executed `executions`. -/
structure Wrote (w : World σ) (count : ℕ) (executions : List Execution) (w' : World σ) :
    Prop where
  planWrites : ∃ written, w'.planWrites = w.planWrites ++ written ∧ count ≤ written.length ∧
    ∀ plan ∈ written, plan.status ≠ .cancelled
  executions : w'.executions = w.executions ++ executions

namespace Wrote

omit [StateStore σ]

variable {w w' w'' : World σ} {count count' : ℕ} {xs xs' : List Execution}

theorem of_same (hwrites : w'.planWrites = w.planWrites)
    (hexecutions : w'.executions = w.executions) : Wrote w 0 [] w' := by
  refine ⟨⟨[], ?_, le_refl 0, by simp⟩, ?_⟩
  · rw [hwrites, List.append_nil]
  · rw [hexecutions, List.append_nil]

theorem trans (h : Wrote w count xs w') (h' : Wrote w' count' xs' w'') :
    Wrote w (count + count') (xs ++ xs') w'' := by
  obtain ⟨⟨written, hw, hle, hstatus⟩, hx⟩ := h
  obtain ⟨⟨written', hw', hle', hstatus'⟩, hx'⟩ := h'
  refine ⟨⟨written ++ written', ?_, ?_, fun plan hplan => ?_⟩, ?_⟩
  · rw [hw', hw, List.append_assoc]
  · rw [List.length_append]
    omega
  · rcases List.mem_append.1 hplan with hplan | hplan
    · exact hstatus plan hplan
    · exact hstatus' plan hplan
  · rw [hx', hx, List.append_assoc]

end Wrote

/-- A call that executes nothing and writes no CANCELLED plan. -/
def Harmless : Call → Prop
  | .executeOne _ _ _ => False
  | .savePlan plan => plan.status ≠ .cancelled
  | .updatePlan plan => plan.status ≠ .cancelled
  | _ => True

theorem statusOf_ne_cancelled (actions : List PlannedAction) :
    AgentPlan.statusOf actions ≠ .cancelled := by
  unfold AgentPlan.statusOf
  split_ifs <;> simp

theorem admits_harmless (d : Delivery) : Admits Harmless d where
  uuid4 := trivial
  appendTraceEvent _ := trivial
  enqueue _ := trivial
  sync _ := trivial
  saveActionResult _ := trivial
  recordIdempotencyKey := trivial
  updatePlan _ := statusOf_ne_cancelled _

section Writes

variable (env : Env) {w : World σ}

theorem sem_wrote {call : Call} (h : Harmless call) : Wrote w 0 [] (env.sem call w).2 := by
  cases call with
  | executeOne => exact h.elim
  | savePlan plan =>
      refine ⟨⟨[plan], rfl, Nat.zero_le _, ?_⟩, (List.append_nil _).symm⟩
      intro written hwritten
      rw [List.mem_singleton.1 hwritten]
      exact h
  | updatePlan plan =>
      refine ⟨⟨[plan], rfl, Nat.zero_le _, ?_⟩, (List.append_nil _).symm⟩
      intro written hwritten
      rw [List.mem_singleton.1 hwritten]
      exact h
  | _ => exact .of_same rfl rfl

/-- A program of harmless calls executes nothing. -/
theorem wp_wrote {α : Type} {p : App α} (hp : p.OnlyCalls Harmless) :
    p.wp env.sem.step (fun _ t => Wrote w 0 [] t) w := by
  refine Program.wp_of_onlyCalls (fun s call r t h hstep hs => ?_) hp (.of_same rfl rfl)
  have ht : t = (env.sem call s).2 := congrArg Prod.snd hstep
  rw [ht]
  exact hs.trans (sem_wrote env h)

theorem save_wrote (d : Delivery) (status : ActionStatus) :
    Wrote w 1 [] (env.sem (.updatePlan (d.planWith status)) w).2 := by
  refine ⟨⟨[d.planWith status], rfl, le_refl 1, ?_⟩, (List.append_nil _).symm⟩
  intro written hwritten
  rw [List.mem_singleton.1 hwritten]
  exact statusOf_ne_cancelled _

/-- A save followed by harmless calls. -/
theorem wp_save_wrote {α : Type} (d : Delivery) (status : ActionStatus) {p : App α}
    (hp : p.OnlyCalls Harmless) :
    (d.save status >>= fun _ => p).wp env.sem.step (fun _ t => Wrote w 1 [] t) w := by
  rw [Program.wp_bind, Delivery.save, Program.wp_perform_step]
  refine Program.wp_mono (wp_wrote env hp) ?_
  intro r t h
  exact (save_wrote env d status).trans h

end Writes

section Decision

variable (env : Env) (d : Delivery) {w : World σ}

/-- A harmless call that answers. -/
theorem perform_wrote {call : Call} (hcall : Harmless call) (a : call.Answer)
    (hanswer : (env.sem call w).1 = .ok a) :
    (perform call).wp env.sem.step
      (fun r t => ∃ a, r = .ok a ∧ Wrote w 0 [] t ∧ t = (env.sem call w).2) w := by
  rw [Program.wp_perform_step]
  exact ⟨a, hanswer, sem_wrote env hcall, rfl⟩

theorem requireApproval_wrote (validation : ValidationResult) :
    (requireApproval d validation).wp env.sem.step (fun _ t => Wrote w 1 [] t) w := by
  have h := admits_harmless d
  refine Program.wp_seq (perform_wrote env h.uuid4 _ rfl) ?_
  rintro resultId w₁ ⟨hw₁, -⟩
  refine Program.wp_seq (perform_wrote env (h.saveActionResult _) () rfl) ?_
  rintro - w₂ ⟨hw₂, -⟩
  refine Program.wp_mono (wp_save_wrote env d _ ?_) ?_
  · refine .bind (h.report _ _ _) fun _ => ?_
    refine .bind ((Program.onlyCalls_perform _).2 h.recordIdempotencyKey) fun _ => ?_
    refine .bind (h.enqueueEvents _) fun _ => .bind (h.deliveryTrace _) fun _ => ?_
    exact h.settleIfSubplan _ _ _
  · intro r t ht
    exact (hw₁.trans hw₂).trans ht

theorem rejectStale_wrote (validation : ValidationResult) :
    (rejectStale d validation).wp env.sem.step (fun _ t => Wrote w 1 [] t) w := by
  have h := admits_harmless d
  refine wp_save_wrote env d _ (.bind (h.report _ _ _) fun _ => ?_)
  refine .bind (h.deliveryTrace _) fun _ => ?_
  split
  · exact h.settleSubplan _ _ _ _
  · refine .bind ((Program.onlyCalls_perform _).2 h.uuid4) fun _ => ?_
    exact .bind ((Program.onlyCalls_perform _).2 (h.enqueue _)) fun _ => h.deliveryTrace _

theorem rejectInvalid_wrote (validation : ValidationResult) :
    (rejectInvalid d validation).wp env.sem.step (fun _ t => Wrote w 1 [] t) w := by
  have h := admits_harmless d
  refine wp_save_wrote env d _ (.bind (h.report _ _ _) fun _ => ?_)
  exact .bind (h.deliveryTrace _) fun _ => h.settleIfSubplan _ _ _

theorem executed_wrote :
    Wrote w 0 [⟨d.plan, d.action, d.context,
      Env.outcomeOf (env.runTool w.tick d.action d.context)⟩]
      (env.sem (.executeOne d.plan d.action d.context) w).2 :=
  ⟨⟨[], (List.append_nil _).symm, le_refl 0, by simp⟩, rfl⟩

/-- Executing writes the plan and makes one execution. -/
theorem execute_wrote (inline : Bool) :
    (execute inline d).wp env.sem.step
      (fun _ t => ∃ outcome, Wrote w 1 [⟨d.plan, d.action, d.context, outcome⟩] t) w := by
  have h := admits_harmless d
  refine Program.wp_seq (perform_wrote env (h.sync _) () rfl) ?_
  rintro - w₁ ⟨hw₁, -⟩
  unfold Delivery.save
  rw [Program.wp_bind, Program.wp_perform_step]
  refine Program.wp_seq (perform_wrote env (h.appendTraceEvent _) () rfl) ?_
  rintro - w₂ ⟨hw₂, -⟩
  rw [Program.wp_bind, Program.wp_attempt_perform_step, Program.andThen_ok]
  refine Program.wp_mono (wp_wrote env (h.settleExecution inline _)) ?_
  intro r t ht
  exact ⟨_, (((hw₁.trans (save_wrote env d .running)).trans hw₂).trans
    (executed_wrote env d)).trans ht⟩

/-- Acting on a verdict writes the plan; COMMIT executes the action. -/
theorem actOn_wrote (inline : Bool) (validation : ValidationResult)
    (hdecision : validation.decision = .suggest ∨ validation.decision = .replan ∨
      validation.decision = .fail ∨ validation.decision = .commit) :
    (actOn inline d validation).wp env.sem.step
      (fun _ t => ∃ xs, Wrote w 1 xs t ∧ (∀ x ∈ xs, x.plan = d.plan ∧ x.action = d.action) ∧
        (xs ≠ [] ↔ validation.decision = .commit)) w := by
  have hnone : ∀ {p : App Unit}, validation.decision ≠ .commit →
      p.wp env.sem.step (fun _ t => Wrote w 1 [] t) w →
      (p >>= fun _ => (pure none : App (Option EventEnvelope))).wp env.sem.step
        (fun _ t => ∃ xs, Wrote w 1 xs t ∧
          (∀ x ∈ xs, x.plan = d.plan ∧ x.action = d.action) ∧
          (xs ≠ [] ↔ validation.decision = .commit)) w := by
    intro p hne hp
    rw [Program.wp_bind]
    refine Program.wp_mono hp ?_
    intro r t ht
    cases r <;> exact ⟨[], ht, by simp, by simp [hne]⟩
  unfold actOn
  rcases hdecision with hd | hd | hd | hd <;> rw [hd] at hnone ⊢
  · exact hnone (by simp) (requireApproval_wrote env d validation)
  · exact hnone (by simp) (rejectStale_wrote env d validation)
  · exact hnone (by simp) (rejectInvalid_wrote env d validation)
  · refine Program.wp_mono (execute_wrote env d inline) ?_
    rintro r t ⟨outcome, ht⟩
    exact ⟨_, ht, by simp, by simp⟩

theorem verdict_cases (tick : ℕ) :
    d.verdict env tick = .suggest ∨ d.verdict env tick = .replan ∨
      d.verdict env tick = .fail ∨ d.verdict env tick = .commit := by
  unfold Delivery.verdict
  split_ifs <;> simp

/-- A decision writes the plan; it executes the action when the verdict is COMMIT. -/
theorem decideAction_wrote (inline : Bool) :
    (decideAction inline d).wp env.sem.step
      (fun _ t => ∃ xs, Wrote w 1 xs t ∧ (∀ x ∈ xs, x.plan = d.plan ∧ x.action = d.action) ∧
        (xs ≠ [] ↔ d.verdict env (w.tick + 1) = .commit)) w := by
  have h := admits_harmless d
  refine Program.wp_seq (perform_wrote env (h.appendTraceEvent _) () rfl) ?_
  rintro - w₁ ⟨hw₁, rfl⟩
  rw [Program.wp_bind]
  refine Program.wp_mono (validateBeforeExecution_spec env d _) ?_
  rintro r w₂ ⟨⟨n, hn⟩, validation, rfl, hverdict, -⟩
  change _ = d.verdict env (w.tick + 1) at hverdict
  have hw₂ : Wrote w 0 [] w₂ := hw₁.trans (.of_same (by rw [hn]) (by rw [hn]))
  clear hn
  refine Program.wp_seq (perform_wrote env (h.appendTraceEvent _) () rfl) ?_
  rintro - w₃ ⟨hw₃, -⟩
  refine Program.wp_mono (actOn_wrote env d inline validation ?_) ?_
  · rw [hverdict]
    exact verdict_cases env d _
  · rintro r t ⟨xs, ht, hxs, hcommit⟩
    rw [hverdict] at hcommit
    exact ⟨xs, (hw₂.trans hw₃).trans ht, hxs, hcommit⟩

end Decision

section Selection

variable (env : Env) {w w' : World σ} {envelope : EventEnvelope} {d : Delivery}

theorem announces_passive : Announces { calls := Passive } where
  uuid4 := by simp [Passive, Call.writes]
  appendTraceEvent _ := by simp [Passive, Call.writes]
  sync _ := by simp [Passive, Call.writes]
  settle _ _ _ _ _ := by simp [Passive, Call.writes]

/-- A passive call that answers. -/
theorem perform_unmoved {call : Call} (hcall : Passive call) {w₁ : World σ}
    (hw₁ : Unmoved w w₁) (a : call.Answer) (ha : (env.sem call w₁).1 = .ok a) :
    (perform call).wp env.sem.step
      (fun r t => ∃ a', r = .ok a' ∧ a' = a ∧ Unmoved w t) w₁ := by
  rw [Program.wp_perform_step]
  have h := sem_unmoved env (w := w₁) hcall
  exact ⟨a, ha, rfl, h.planWrites.trans hw₁.planWrites, h.executions.trans hw₁.executions⟩

/-- What a selection finds in the loaded plan. -/
def Selection.On (plan : AgentPlan) (actionId : String) : Selection → Prop
  | .notPending plan' action =>
      plan' = plan ∧ plan.getAction actionId = some action ∧ action.status ≠ .pending
  | .duplicate d | .selected d =>
      d.plan = plan ∧ plan.getAction actionId = some d.action ∧ d.action.status = .pending

/-- A selection is one of the loaded plan, and moves nothing. -/
theorem selectAction_spec (planId actionId : String) :
    (selectAction envelope planId actionId).wp env.sem.step
      (fun r t => Unmoved w t ∧ ∀ selection, r = .ok selection →
        ∃ plan, loadPlan env w envelope planId = some plan ∧ selection.On plan actionId) w := by
  have hpassive : ∀ call : Call, call.writes = none → Passive call := by
    intro call hcall
    simp [Passive, hcall]
  refine Program.wp_seq (perform_unmoved env (hpassive _ rfl) ⟨rfl, rfl⟩ _ rfl) ?_
  rintro loaded w₁ ⟨hloaded, hw₁⟩
  change loaded = loadPlan env w envelope planId at hloaded
  rw [← hloaded]
  cases loaded with
  | none => exact ⟨hw₁, by rintro _ ⟨⟩⟩
  | some plan =>
      dsimp only
      split
      next => exact ⟨hw₁, by rintro _ ⟨⟩⟩
      next action haction =>
        split
        next hpending =>
          refine ⟨hw₁, ?_⟩
          rintro _ ⟨⟩
          exact ⟨plan, rfl, rfl, haction, hpending⟩
        next hpending =>
          refine Program.wp_seq (perform_unmoved env (hpassive _ rfl) hw₁ _ rfl) ?_
          rintro snapshot w₂ ⟨-, hw₂⟩
          cases snapshot with
          | none => exact ⟨hw₂, by rintro _ ⟨⟩⟩
          | some snapshot =>
              refine Program.wp_seq (perform_unmoved env (hpassive _ rfl) hw₂ _ rfl) ?_
              rintro consumed w₃ ⟨-, hw₃⟩
              cases consumed <;> refine ⟨hw₃, ?_⟩ <;> rintro _ ⟨⟩ <;>
                exact ⟨plan, rfl, rfl, haction, not_not.1 hpending⟩

/-- An entry that selects nothing writes no plan and executes nothing. -/
theorem handleOne_of_selected_none (inline : Bool) (h : selected env w envelope = none) :
    (handleOne inline envelope).wp env.sem.step (fun _ t => Unmoved w t) w := by
  unfold handleOne
  unfold selected at h
  split
  next planId actionId hkind =>
    rw [hkind] at h
    unfold handleAction
    rw [Program.wp_bind, Program.wp_step_iff]
    have hselect : (selectAction envelope planId actionId).wp env.sem.step _ w :=
      selectAction_spec env planId actionId
    rw [Program.wp_step_iff] at hselect
    dsimp only at h
    rcases hexec : env.sem.exec (selectAction envelope planId actionId) w with ⟨r, w₁⟩
    rw [hexec] at h hselect
    obtain ⟨hw₁, -⟩ := hselect
    have hlater : ∀ {p : App (Option EventEnvelope)}, p.OnlyCalls Passive →
        p.wp env.sem.step (fun _ t => Unmoved w t) w₁ := by
      intro p hp
      refine Program.wp_mono (wp_unmoved env hp) ?_
      intro r t ht
      exact ⟨ht.planWrites.trans hw₁.planWrites, ht.executions.trans hw₁.executions⟩
    rcases r with x | (⟨plan, action⟩ | d | d)
    · exact hw₁
    · exact hlater ((announces_passive.skipAction _ _ _ _
        fun _ _ => by simp [Passive, Call.writes]).mono fun _ _ => trivial)
    · exact hlater (.bind (announces_passive.trace _ _ _ _) fun _ => trivial)
    · cases h
  next => exact ⟨rfl, rfl⟩

/-- An entry that selects an action goes on with its decision. -/
theorem handleOne_of_selected (inline : Bool) (h : selected env w envelope = some (d, w')) :
    Unmoved w w' ∧
      env.sem.exec (handleOne inline envelope) w = env.sem.exec (decideAction inline d) w' := by
  unfold selected at h
  split at h
  next planId actionId hkind =>
    split at h
    next d₁ w₁ hexec =>
      obtain ⟨rfl, rfl⟩ := Prod.mk.inj (Option.some.inj h)
      have hselect : (selectAction envelope planId actionId).wp env.sem.step _ w :=
        selectAction_spec env planId actionId
      rw [Program.wp_step_iff, hexec] at hselect
      refine ⟨hselect.1, ?_⟩
      unfold handleOne
      rw [hkind]
      change env.sem.exec (Program.bind _ _) w = _
      rw [Semantics.exec_bind, hexec]
      rfl
    next => cases h
  next => cases h

end Selection

section Iff

variable (env : Env) {w : World σ} {envelope : EventEnvelope} {planId actionId : String}

/-- What is selected is what the event asks for. -/
theorem selectAction_asksFor (hkind : envelope.event.kind = .agentAction planId actionId) :
    (selectAction envelope planId actionId).wp env.sem.step
      (fun r t => (∀ d, r = .ok (.selected d) ↔ AsksFor env w envelope planId actionId d) ∧
        ∀ d, r = .ok (.selected d) → t.tick = w.tick + 3) w := by
  have hnone : ∀ {r : Except Exc Selection} {t : World σ}, (∀ d, r ≠ .ok (.selected d)) →
      (∀ d, ¬ AsksFor env w envelope planId actionId d) →
      (∀ d, r = .ok (.selected d) ↔ AsksFor env w envelope planId actionId d) ∧
        ∀ d, r = .ok (.selected d) → t.tick = w.tick + 3 := by
    intro r t hr hd
    exact ⟨fun d => iff_of_false (hr d) (hd d), fun d h => absurd h (hr d)⟩
  unfold selectAction
  rw [Program.wp_bind, Program.wp_perform_step]
  change Program.andThen _ _ _ (.ok (loadPlan env w envelope planId)) _
  rw [Program.andThen_ok]
  cases hplan : loadPlan env w envelope planId with
  | none =>
      refine hnone (by simp) fun d h => ?_
      have hsome := h.plan
      rw [hplan] at hsome
      cases hsome
  | some plan =>
      have hd : ∀ {d}, AsksFor env w envelope planId actionId d → d.plan = plan := fun h =>
        Option.some.inj (h.plan.symm.trans hplan)
      dsimp only
      split
      next haction =>
        refine hnone (by simp) fun d h => ?_
        have hsome := h.action
        rw [hd h, haction] at hsome
        cases hsome
      next action haction =>
        have hda : ∀ {d}, AsksFor env w envelope planId actionId d → d.action = action :=
          fun h => Option.some.inj ((hd h ▸ h.action).symm.trans haction)
        split
        next hpending =>
          exact hnone (by simp) fun d h => hpending (hda h ▸ h.pending)
        next hpending =>
          rw [Program.wp_bind, Program.wp_perform_step]
          change Program.andThen _ _ _
            (.ok (loadContext env w envelope planId plan.contextSnapshotRef).1) _
          rw [Program.andThen_ok]
          cases hcontext : (loadContext env w envelope planId plan.contextSnapshotRef).1 with
          | none =>
              refine hnone (by simp) fun d h => ?_
              obtain ⟨snapshot, hsnapshot, -⟩ := h.context
              rw [hd h, hcontext] at hsnapshot
              cases hsnapshot
          | some snapshot =>
              dsimp only
              rw [Program.wp_bind, Program.wp_perform_step]
              change Program.andThen _ _ _ (.ok (keyRecorded env w envelope planId
                plan.contextSnapshotRef action.idempotencyKey)) _
              rw [Program.andThen_ok]
              cases hkey : keyRecorded env w envelope planId plan.contextSnapshotRef
                  action.idempotencyKey with
              | true =>
                  refine hnone (by simp) fun d h => ?_
                  have hunrecorded := h.unrecorded
                  rw [hd h, hda h, hkey] at hunrecorded
                  cases hunrecorded
              | false =>
                  refine ⟨fun d => ⟨?_, fun h => ?_⟩, fun _ _ => rfl⟩
                  · rintro ⟨⟩
                    exact ⟨hkind, rfl, hplan, haction, not_not.1 hpending,
                      ⟨snapshot, hcontext, rfl⟩, hkey⟩
                  · obtain ⟨snapshot', hsnapshot, hdc⟩ := h.context
                    rw [hd h, hcontext] at hsnapshot
                    cases hsnapshot
                    rw [← hd h, ← hda h, ← h.delivered, ← hdc]

/-- An entry decides on what its event asks for. -/
theorem asksFor_of_selected {d : Delivery} {w' : World σ}
    (h : selected env w envelope = some (d, w')) :
    (∃ planId actionId, AsksFor env w envelope planId actionId d) ∧ w'.tick = w.tick + 3 := by
  unfold selected at h
  split at h
  next planId actionId hkind =>
    have hspec : (selectAction envelope planId actionId).wp env.sem.step _ w :=
      selectAction_asksFor env hkind
    rw [Program.wp_step_iff] at hspec
    split at h
    next d' t hexec =>
      cases h
      rw [hexec] at hspec
      exact ⟨⟨planId, actionId, (hspec.1 d).1 rfl⟩, hspec.2 d rfl⟩
    next => cases h
  next => cases h

/-- What its event asks for is decided on. -/
theorem AsksFor.selected {d : Delivery} (h : AsksFor env w envelope planId actionId d) :
    ∃ w', selected env w envelope = some (d, w') := by
  have hspec : (selectAction envelope planId actionId).wp env.sem.step _ w :=
    selectAction_asksFor env h.kind
  rw [Program.wp_step_iff] at hspec
  refine ⟨(env.sem.exec (selectAction envelope planId actionId) w).2, ?_⟩
  unfold ActionEventHandler.selected
  rw [h.kind]
  have hok := (hspec.1 d).2 h
  dsimp only
  rcases hexec : env.sem.exec (selectAction envelope planId actionId) w with ⟨r, t⟩
  rw [hexec] at hok
  rw [show r = .ok (.selected d) from hok]

theorem verdict_commit_iff (d : Delivery) (tick : ℕ) :
    d.verdict env tick = .commit ↔ d.Cleared env tick := by
  constructor
  · intro h
    unfold Delivery.verdict at h
    split_ifs at h with hpermitted hstale happroval
    exact ⟨by simpa using hpermitted, not_not.1 hstale, by simpa using happroval⟩
  · intro h
    unfold Delivery.verdict
    rw [if_neg (by simp [h.permitted]), if_neg (not_not.2 h.fresh), if_neg (by simp [h.approved])]

/-- An entry executes runnable actions only exactly when its event asks for such. -/
theorem runsRunnable_iff (inline : Bool) (envelope : EventEnvelope) (w : World σ) :
    RunsRunnable env inline envelope w ↔ AsksForRunnable env w envelope := by
  unfold RunsRunnable AsksForRunnable
  cases hselected : selected env w envelope with
  | none =>
      have hspec := handleOne_of_selected_none env inline hselected
      rw [Program.wp_step_iff] at hspec
      refine iff_of_true (by simp [hspec.planWrites, hspec.executions]) ?_
      intro planId actionId d hd
      obtain ⟨w', hw'⟩ := hd.selected
      cases hselected.symm.trans hw'
  | some entry =>
      obtain ⟨d, w'⟩ := entry
      obtain ⟨⟨planId, actionId, hasks⟩, htick⟩ := asksFor_of_selected env hselected
      obtain ⟨hw', hexec⟩ := handleOne_of_selected env inline hselected
      have hspec := decideAction_wrote env d inline (w := w')
      rw [Program.wp_step_iff, ← hexec, verdict_commit_iff, htick] at hspec
      obtain ⟨xs, ⟨⟨written, hwrites, hcount, hstatus⟩, hexecutions⟩, hxs, hcommit⟩ := hspec
      rw [hw'.planWrites] at hwrites
      rw [hw'.executions] at hexecutions
      simp only [hwrites, hexecutions, List.drop_left]
      constructor
      · rintro ⟨hrunnable, hcancelled⟩ planId' actionId' d' hd'
        obtain ⟨t, ht⟩ := hd'.selected
        cases hselected.symm.trans ht
        constructor
        · intro hd
          obtain ⟨plan, hmem⟩ := List.exists_mem_of_length_pos hcount
          exact hstatus plan hmem
            (hcancelled planId actionId d.plan hasks.kind hasks.plan hd plan hmem)
        · intro hcleared
          obtain ⟨x, hx⟩ := List.exists_mem_of_ne_nil xs (hcommit.2 hcleared)
          obtain ⟨hxplan, hxaction⟩ := hxs x hx
          have hx := hrunnable x hx
          rw [hxplan, hxaction] at hx
          exact ⟨hx.1, hx.2.2⟩
      · intro h
        obtain ⟨hd, hrunnable⟩ := h planId actionId d hasks
        constructor
        · intro x hx
          obtain ⟨hxplan, hxaction⟩ := hxs x hx
          obtain ⟨hstatus, hdepends⟩ := hrunnable (hcommit.1 (List.ne_nil_of_mem hx))
          rw [hxplan, hxaction]
          exact ⟨hstatus, hasks.pending, hdepends⟩
        · intro planId' actionId' plan hkind hplan hcancelled
          cases hasks.kind.symm.trans hkind
          cases hasks.plan.symm.trans hplan
          exact absurd hcancelled hd

end Iff

end ActionEventHandler

end PrismAgent
