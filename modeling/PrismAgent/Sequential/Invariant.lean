import PrismAgent.Sequential.Tracks

/-!
# The invariant of a sequential run

`InOrder` says what holds of the track of a plan between two deliveries: every plan written so
far leads up to the stored one, and a tool has succeeded exactly for its COMPLETED actions.
`Sequential` says that all tracks are in order and that a queued action event asks for an
action that has been reached. Entries of the action handler keep it as long as no action is
found stale.
-/

namespace PrismAgent

open Effect

/-- A tool call whose turn it was: all actions before its own are COMPLETED. -/
def Execution.InTurn (x : Execution) : Prop :=
  ∃ pre post, x.plan.actions = pre ++ x.action :: post ∧ ∀ b ∈ pre, b.status = .completed

/-- All plans written have distinct action ids, and no action was found stale. -/
def Regular {σ : Type} (w : World σ) : Prop :=
  ∀ p ∈ w.planWrites, (p.actions.map (·.actionId)).Nodup ∧ ∀ a ∈ p.actions, a.status ≠ .stale

instance {σ : Type} (w : World σ) : Decidable (Regular w) :=
  inferInstanceAs (Decidable (∀ p ∈ w.planWrites,
    (p.actions.map (·.actionId)).Nodup ∧ ∀ a ∈ p.actions, a.status ≠ .stale))

/-- A graph without dependencies to resolve: one node at most and no synthesizer. -/
def TaskGraph.Single (g : TaskGraph) : Prop :=
  g.nodes.length ≤ 1 ∧ g.synthesizerNode = none

/-- An event for an action of the plan that has been reached. -/
def AsksForReached (p : AgentPlan) (envelope : EventEnvelope) : Prop :=
  envelope.event.workspaceId = p.workspaceId ∧
    ∃ actionId, envelope.event.kind = .agentAction p.planId actionId ∧ p.Reached actionId

/-- The track of a plan that runs in order. -/
structure InOrder (p : AgentPlan) (track : PlanTrack) : Prop where
  stored : track.stored = some p
  writes : track.writes.Pairwise AgentPlan.Progresses
  leads : ∀ q ∈ track.writes, q.Progresses p
  orderly : p.Orderly
  executions : ∀ x ∈ track.executions, x.InTurn
  successes : ∀ actionId, track.successes actionId ≤ 1 ∧ (track.successes actionId = 1 ↔
    ∃ a ∈ p.actions, a.actionId = actionId ∧ a.status = .completed)

/-- Nothing has been planned under the key, or its plan runs in order. -/
def InOrderAt (key : String × String) (track : PlanTrack) : Prop :=
  track = {} ∨ ∃ p : AgentPlan, p.key = key ∧ InOrder p track

/-- An event for an action of a stored plan that has been reached. -/
def AsksForStored (w : World MemoryStateStore) (envelope : EventEnvelope) : Prop :=
  ∃ p : AgentPlan, w.store.plans p.key = some p ∧ AsksForReached p envelope

/-- An event that starts a node of a task graph. -/
def IsTask (envelope : EventEnvelope) : Prop :=
  ∃ runId nodeId, envelope.event.kind = .subagentTask runId nodeId

/-- Contexts are filed under their own workspaces, and without orchestration all graphs are
single. -/
structure Tidy (orchestrated : Prop) (w : World MemoryStateStore) : Prop where
  single : ¬orchestrated → ∀ key g, w.store.taskGraphs key = some g → g.Single
  contexts : ∀ key snapshot, w.store.contextSnapshots key = some snapshot →
    snapshot.context.workspaceId = key.1

/-- What holds between two deliveries: the tracks of all plans are in order, and only
announcements, tasks of an orchestrated run and events for reached actions are queued. -/
structure Sequential (orchestrated : Prop) (w : World MemoryStateStore) : Prop where
  tracks : ∀ key, InOrderAt key (w.track key)
  queue : ∀ e ∈ w.queue, Announcement e ∨ orchestrated ∧ IsTask e ∨ AsksForStored w e
  tidy : Tidy orchestrated w

theorem asksForReached_of_next {p : AgentPlan} (h : p.Orderly) {e : EventEnvelope}
    (he : ActionEventHandler.AsksForNext p e) : AsksForReached p e := by
  obtain ⟨next, hnext, hkind, hworkspace⟩ := he
  exact ⟨hworkspace, next.actionId, hkind, h.reached_nextPendingAction hnext⟩

theorem AsksForReached.progress {p p' : AgentPlan} {e : EventEnvelope}
    (h : AsksForReached p e) (hp : p.Progresses p') : AsksForReached p' e := by
  obtain ⟨hworkspace, actionId, hkind, hreached⟩ := h
  refine ⟨hworkspace.trans hp.workspaceId.symm, actionId, ?_, hreached.progress hp⟩
  rw [hkind, hp.planId]

theorem Tidy.moves {orchestrated : Prop} {w t : World MemoryStateStore} {plans : List AgentPlan}
    {executions : List Execution} {events : List EventEnvelope} (h : Tidy orchestrated w)
    (hmoves : Moves w t plans executions events) : Tidy orchestrated t := by
  constructor
  · rw [hmoves.taskGraphs]
    exact h.single
  · rw [hmoves.contextSnapshots]
    exact h.contexts

namespace Sequential

variable {orchestrated : Prop} {p : AgentPlan} {w t : World MemoryStateStore}
  {plans : List AgentPlan} {executions : List Execution} {events : List EventEnvelope}

/-- A stored plan runs in order. -/
theorem inOrder (h : Sequential orchestrated w) {key : String × String}
    (hp : w.store.plans key = some p) : p.key = key ∧ InOrder p (w.track key) := by
  have hstored : (w.track key).stored = some p := hp
  rcases h.tracks key with hempty | ⟨q, hkey, hq⟩
  · rw [hempty] at hstored
    cases hstored
  · obtain rfl := Option.some.inj (hq.stored.symm.trans hstored)
    exact ⟨hkey, hq⟩

/-- Nothing has been recorded of a plan that is not stored. -/
theorem track_eq_empty (h : Sequential orchestrated w) {key : String × String}
    (hp : w.store.plans key = none) : w.track key = {} := by
  rcases h.tracks key with hempty | ⟨q, -, hq⟩
  · exact hempty
  · have hstored : (w.track key).stored = none := hp
    rw [hq.stored] at hstored
    cases hstored

/-- Moves that are about one plan and leave its track in order keep the invariant. -/
theorem moves (h : Sequential orchestrated w) (hmoves : Moves w t plans executions events)
    (hplans : ∀ q ∈ plans, q.key = p.key) (hexecutions : ∀ x ∈ executions, x.plan.key = p.key)
    (hp : InOrder p ((w.track p.key).extend plans executions))
    (hprogress : ∀ q, w.store.plans p.key = some q → q.Progresses p)
    (hevents : ∀ e ∈ events, Announcement e ∨ AsksForReached p e) :
    Sequential orchestrated t := by
  have hself := hmoves.track_self hplans hexecutions
  have hothers : ∀ key, key ≠ p.key → t.track key = w.track key :=
    fun key hkey => hmoves.track_of_ne hplans hexecutions hkey
  have hstored : t.store.plans p.key = some p := by
    have hextended := congrArg PlanTrack.stored hself
    exact hextended.trans hp.stored
  refine ⟨fun key => ?_, fun e he => ?_, h.tidy.moves hmoves⟩
  · by_cases hkey : key = p.key
    · subst hkey
      rw [hself]
      exact .inr ⟨p, rfl, hp⟩
    · rw [hothers key hkey]
      exact h.tracks key
  · rw [hmoves.queue] at he
    rcases List.mem_append.1 he with he | he
    · refine (h.queue e he).imp_right fun hqueued => hqueued.imp_right ?_
      rintro ⟨q, hq, hasks⟩
      by_cases hkey : q.key = p.key
      · exact ⟨p, hstored, hasks.progress (hprogress q (hkey ▸ hq))⟩
      · exact ⟨q, (congrArg PlanTrack.stored (hothers _ hkey)).trans hq, hasks⟩
    · exact (hevents e he).imp_right fun hasks => .inr ⟨p, hstored, hasks⟩

/-- Enqueueing events for a stored plan keeps the invariant. -/
theorem announce (h : Sequential orchestrated w) (hmoves : Moves w t [] [] events)
    (hevents : ∀ e ∈ events, Announcement e ∨ AsksForStored w e) :
    Sequential orchestrated t := by
  have hplans : t.store.plans = w.store.plans := hmoves.table
  refine ⟨fun key => ?_, fun e he => ?_, h.tidy.moves hmoves⟩
  · have hsame : t.track key = w.track key := by
      have hextends : t.track key = (w.track key).extend [] [] :=
        hmoves.track_self (List.forall_mem_nil _) (List.forall_mem_nil _)
      rw [hextends, PlanTrack.extend_nil]
    rw [hsame]
    exact h.tracks key
  · unfold AsksForStored
    rw [hplans]
    rw [hmoves.queue] at he
    rcases List.mem_append.1 he with he | he
    · exact h.queue e he
    · exact (hevents e he).imp_right .inr

end Sequential

namespace ActionEventHandler

/-- An ending that does not find the action stale. -/
theorem Ending.cases_of_ne_stale {d : Delivery} {status : ActionStatus}
    {plans : List AgentPlan} {executions : List Execution} (h : Ending d status plans executions)
    (hstale : status ≠ .stale) :
    (status = .pending ∨ status = .completed ∨ status = .failed ∨
        status = .requiresApproval) ∧
      (plans = [d.planWith status] ∨ plans = [d.planWith .running, d.planWith status]) ∧
      (∀ x ∈ executions, x.plan = d.plan ∧ x.action = d.action) ∧
      (executions.countP fun x => x.outcome = .success) =
        if status = .completed then 1 else 0 := by
  cases h with
  | stale => exact absurd rfl hstale
  | _ => simp

end ActionEventHandler

namespace InOrder

open ActionEventHandler

section Decide

variable {d : Delivery} {track : PlanTrack} {pre post : List PlannedAction}
  {status : ActionStatus} {plans : List AgentPlan} {executions : List Execution}

theorem countP_of_action_eq {action : PlannedAction}
    (h : ∀ x ∈ executions, x.action = action) (actionId : String) :
    (executions.countP fun x => x.action.actionId = actionId ∧ x.outcome = .success) =
      if action.actionId = actionId then executions.countP fun x => x.outcome = .success
      else 0 := by
  split
  next hid =>
    refine List.countP_congr fun x hx => ?_
    simp [h x hx, hid]
  next hid =>
    rw [List.countP_eq_zero]
    intro x hx
    simp [h x hx, hid]

/-- A decision that does not find its action stale keeps the track in order. -/
theorem decide (h : InOrder d.plan track) (hsplit : d.plan.actions = pre ++ d.action :: post)
    (hpre : ∀ b ∈ pre, b.status = .completed) (hpending : d.action.status = .pending)
    (hending : Ending d status plans executions) (hstale : status ≠ .stale) :
    InOrder (d.planWith status) (track.extend plans executions) := by
  obtain ⟨hstatus, hplans, hexecutions, hcount⟩ := hending.cases_of_ne_stale hstale
  have horderly : (d.planWith status).Orderly := h.orderly.settle hsplit hpre hpending hstatus
  have hprogress : ∀ status', d.plan.Progresses (d.planWith status') :=
    h.orderly.progresses_replaceAction hsplit hpending
  have hbetween : (d.planWith .running).Progresses (d.planWith status) :=
    AgentPlan.progresses_withStatus d.plan d.action (by rintro ⟨⟩)
  refine ⟨?_, ?_, ?_, horderly, ?_, ?_⟩
  · rcases hplans with rfl | rfl <;> rfl
  · change (track.writes ++ plans).Pairwise _
    rw [List.pairwise_append]
    refine ⟨h.writes, ?_, fun q hq q' hq' => (h.leads q hq).trans ?_⟩
    · rcases hplans with rfl | rfl
      · exact List.pairwise_singleton _ _
      · simpa using hbetween
    · rcases hplans with rfl | rfl
      · rw [List.mem_singleton.1 hq']
        exact hprogress status
      · rcases List.mem_pair.1 hq' with rfl | rfl
        · exact hprogress .running
        · exact hprogress status
  · intro q hq
    rcases List.mem_append.1 hq with hq | hq
    · exact (h.leads q hq).trans (hprogress status)
    · rcases hplans with rfl | rfl
      · rw [List.mem_singleton.1 hq]
        exact .refl _
      · rcases List.mem_pair.1 hq with rfl | rfl
        · exact hbetween
        · exact .refl _
  · intro x hx
    rcases List.mem_append.1 hx with hx | hx
    · exact h.executions x hx
    · obtain ⟨hplan, haction⟩ := hexecutions x hx
      refine ⟨pre, post, ?_, hpre⟩
      rw [hplan, haction]
      exact hsplit
  · intro actionId
    have hsum : (track.extend plans executions).successes actionId = track.successes actionId +
        if actionId = d.action.actionId ∧ status = .completed then 1 else 0 := by
      unfold PlanTrack.successes PlanTrack.extend
      dsimp only
      rw [List.countP_append, countP_of_action_eq fun x hx => (hexecutions x hx).2, hcount]
      by_cases hid : actionId = d.action.actionId
      · simp [hid]
      · simp [hid, Ne.symm hid]
    have hold := h.successes actionId
    rw [hsum, Delivery.planWith, h.orderly.completed_replaceAction hsplit hpending]
    by_cases hcompletes : actionId = d.action.actionId ∧ status = .completed
    · have hfresh : track.successes actionId = 0 := by
        by_contra hpos
        obtain ⟨a, ha, hid, hcompleted⟩ := hold.2.1 (by omega)
        obtain ⟨pre', post', hsplit'⟩ := List.append_of_mem ha
        have hfound := h.orderly.getAction_eq hsplit'
        rw [hid, hcompletes.1, h.orderly.getAction_eq hsplit] at hfound
        rw [← Option.some.inj hfound, hpending] at hcompleted
        cases hcompleted
      rw [if_pos hcompletes, hfresh]
      exact ⟨by omega, iff_of_true rfl (.inl hcompletes)⟩
    · simpa [hcompletes] using hold

end Decide

end InOrder

section Entries

variable (env : Env) {w : World MemoryStateStore} {envelope : EventEnvelope}

/-- What has been written stays written. -/
theorem wp_planWrites {σ : Type} [StateStore σ] {w : World σ} {α : Type} (program : App α) :
    program.wp env.sem.step (fun _ t => ∀ q ∈ w.planWrites, q ∈ t.planWrites) w := by
  have hall : program.OnlyCalls fun _ => True := by
    induction program with
    | pure a => trivial
    | raise x => trivial
    | call e k ih => exact ⟨trivial, fun r _ => ih r⟩
  refine Program.wp_of_onlyCalls (fun s call r t _ hstep hs => ?_) hall fun _ => id
  have ht : t = (env.sem call s).2 := congrArg Prod.snd hstep
  rw [ht]
  intro q hq
  have hkeep : s.planWrites ⊆ (env.sem call s).2.planWrites := by
    cases call with
    | savePlan plan => exact List.subset_append_left _ _
    | updatePlan plan => exact List.subset_append_left _ _
    | _ => exact List.Subset.refl _
  exact hkeep (hs q hq)

theorem wp_not_regular {α : Type} (program : App α) (h : ¬ Regular w) :
    program.wp env.sem.step (fun _ t => ¬ Regular t) w := by
  refine Program.wp_mono (wp_planWrites env program) ?_
  intro r t ht hregular
  exact h fun q hq => hregular q (ht q hq)

/-- The invariant after an entry: an action was found stale, or the plans are in order and what
is chained asks for an action that has been reached. -/
def Advances (orchestrated : Prop) (r : Except Exc (Option EventEnvelope))
    (t : World MemoryStateStore) : Prop :=
  ¬ Regular t ∨ Sequential orchestrated t ∧ ∀ e, r = .ok (some e) → AsksForStored t e

open ActionEventHandler

variable {orchestrated : Prop}

/-- A decision on an action whose turn it is. -/
theorem Sequential.advances {d : Delivery} {r : Except Exc (Option EventEnvelope)}
    {t : World MemoryStateStore} (h : Sequential orchestrated w)
    (hstored : w.store.plans d.plan.key = some d.plan)
    (hreached : d.plan.Reached d.action.actionId)
    (hfound : d.plan.getAction d.action.actionId = some d.action)
    (hpending : d.action.status = .pending) (hdecides : Decides d w r t) :
    Advances orchestrated r t := by
  obtain ⟨status, plans, executions, events, hending, hmoves, hfollows, hchained⟩ := hdecides
  obtain ⟨-, horder⟩ := h.inOrder hstored
  obtain ⟨pre, action, post, hsplit, hid, hpre⟩ := hreached
  have haction : action = d.action := by
    have := horder.orderly.getAction_eq hsplit
    rw [hid, hfound] at this
    exact (Option.some.inj this).symm
  subst haction
  by_cases hstale : status = .stale
  · subst hstale
    left
    intro hregular
    cases hending
    refine (hregular (d.planWith .stale) ?_).2 (d.action.withStatus .stale) ?_ rfl
    · rw [hmoves.planWrites]
      simp
    · unfold Delivery.planWith
      rw [horder.orderly.replaceAction_actions_eq hsplit]
      simp
  · right
    have hprogress : d.plan.Progresses (d.planWith status) :=
      horder.orderly.progresses_replaceAction hsplit hpending status
    have hafter : InOrder (d.planWith status) ((w.track d.plan.key).extend plans executions) :=
      horder.decide hsplit hpre hpending hending hstale
    obtain ⟨-, hplans, hexecutions, -⟩ := hending.cases_of_ne_stale hstale
    have hkeys : ∀ q ∈ plans, q.key = d.plan.key := by
      rcases hplans with rfl | rfl <;> simp [Delivery.planWith]
    have hruns : ∀ x ∈ executions, x.plan.key = d.plan.key := fun x hx => by
      rw [(hexecutions x hx).1]
    have ht : Sequential orchestrated t := by
      refine h.moves (p := d.planWith status) hmoves hkeys hruns hafter (fun q hq => ?_) ?_
      · obtain rfl := Option.some.inj (hstored.symm.trans hq)
        exact hprogress
      · intro e he
        rcases hfollows e he with habsurd | hannouncement | ⟨-, hworkspace, hkind⟩ | hnext
        · exact absurd habsurd hstale
        · exact .inl hannouncement
        · refine .inr ⟨hworkspace, _, hkind, ?_⟩
          exact AgentPlan.Reached.progress ⟨pre, d.action, post, hsplit, rfl, hpre⟩ hprogress
        · exact .inr (asksForReached_of_next hafter.orderly hnext)
    refine ⟨ht, fun e he => ⟨d.planWith status, ?_, asksForReached_of_next hafter.orderly
      (hchained e he).2⟩⟩
    have hself := congrArg PlanTrack.stored (hmoves.track_self hkeys hruns)
    exact hself.trans hafter.stored

theorem handleOne_advances (inline : Bool) (h : Sequential orchestrated w)
    (hasks : AsksForStored w envelope) :
    (handleOne inline envelope).wp env.sem.step (Advances orchestrated) w := by
  obtain ⟨p, hstored, hworkspace, actionId, hkind, hreached⟩ := hasks
  have horderly := (h.inOrder hstored).2.orderly
  have hplan : w.store.getPlan envelope.event.workspaceId p.planId = some p := by
    rw [hworkspace]
    exact hstored
  unfold handleOne
  rw [hkind]
  refine Program.wp_mono (handleAction_spec env inline hplan) ?_
  rintro r t (⟨events, hmoves, hevents, hchained⟩ |
    ⟨d, rfl, hfound, hpending, w₁, hw₁, hdecides⟩)
  · have hkeeps : t.store.plans p.key = some p := by
      rw [hmoves.table]
      exact hstored
    refine .inr ⟨h.announce hmoves fun e he => ?_, fun e he => ?_⟩
    · exact (hevents e he).imp_right fun hnext =>
        ⟨p, hstored, asksForReached_of_next horderly hnext⟩
    · exact ⟨p, hkeeps, asksForReached_of_next horderly (hchained e he).1⟩
  · obtain rfl := AgentPlan.getAction_actionId hfound
    have hkeeps : w₁.store.plans d.plan.key = some d.plan := by
      rw [hw₁.table]
      exact hstored
    exact (h.announce hw₁ (by simp)).advances hkeeps hreached hfound hpending hdecides

/-- An invocation for an action that has been reached keeps the invariant. -/
theorem handle_sequential (budget : ℕ) (h : Sequential orchestrated w)
    (hasks : AsksForStored w envelope) :
    (handle budget envelope).wp env.sem.step
      (fun _ t => ¬ Regular t ∨ Sequential orchestrated t) w := by
  induction budget generalizing envelope w with
  | zero =>
      unfold handle
      rw [Program.wp_bind]
      refine Program.wp_mono (handleOne_advances env false h hasks) ?_
      rintro r t (hstale | ⟨hsequential, -⟩)
      · cases r <;> exact .inl hstale
      · cases r <;> exact .inr hsequential
  | succ budget ih =>
      unfold handle
      rw [Program.wp_bind]
      refine Program.wp_mono (handleOne_advances env true h hasks) ?_
      rintro r t (hstale | ⟨hsequential, hchained⟩)
      · cases r with
        | error x => exact .inl hstale
        | ok next =>
            refine Program.wp_mono (wp_not_regular env _ hstale) ?_
            exact fun _ _ => .inl
      · rcases r with x | _ | next
        · exact .inr hsequential
        · exact .inr hsequential
        · exact ih hsequential (hchained next rfl)

end Entries

end PrismAgent
