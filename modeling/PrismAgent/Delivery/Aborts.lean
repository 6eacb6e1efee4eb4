import PrismAgent.Delivery.Clears
import PrismAgent.Join.Unknown

/-!
# Aborted handlings

The handling of an event may be aborted by any of its calls, before the call takes place
or after, and the event is delivered again. As long as no handling is aborted between a
write of a graph and the last of the calls that it calls for, the events, results and
reports keep up with the stored graphs. An abort in between is not made good: the
redelivered event finds the graph written and is taken for a duplicate.
-/

namespace PrismAgent

open Effect

section Lawful

open DomainEventHandler (startGraph handleOrchestrated handlePlan startPlan)

theorem lawful_of_writes {call : Call} (h : call.writes ≠ some .taskGraphs) : Lawful call := by
  cases call <;> trivial

theorem Writes.lawful {α : Type} {parts : List Part} {p : App α} (hp : Writes parts p)
    (hgraphs : .taskGraphs ∉ parts) : p.OnlyCalls Lawful :=
  (hp.avoids hgraphs).mono fun _ hcall => lawful_of_writes hcall

theorem lawful_of_founding {workspaceId runId : String} {call : Call}
    (h : Founding workspaceId runId call) : Lawful call := by
  cases call with
  | saveTaskGraph graph =>
      obtain ⟨-, -, hnodes, hsynth⟩ := h
      intro n hn
      rcases List.mem_append.1 hn with hn | hn
      · exact hnodes n hn
      · exact hsynth n (Option.mem_toList.1 hn)
  | advanceTaskGraph => exact h.elim
  | _ => trivial

variable {envelope : EventEnvelope} {snapshot : ContextSnapshot} {runId : String}

theorem handleOrchestrated_lawful (registries : Registries) (workflow : WorkflowDefinition) :
    (handleOrchestrated registries envelope workflow snapshot runId).OnlyCalls Lawful := by
  refine .bind ((Program.onlyCalls_perform _).2 trivial) fun found => ?_
  split
  · exact (trace_writes (List.mem_singleton_self Part.traces) _ _ _ _).lawful (by decide)
  · refine .bind ((DomainEventHandler.unlessTerminal_writes envelope _ _).lawful (by decide))
      fun started => ?_
    split
    · trivial
    · refine Program.Respects.bind (respects_liftExcept _) fun graph hgraph => ?_
      exact (startGraph_founds (Orchestrator.buildOrchestratedGraph_founding hgraph _)).mono
        fun _ => lawful_of_founding

theorem handlePlan_lawful (registries : Registries) (workflow : WorkflowDefinition) :
    (handlePlan registries envelope workflow snapshot runId).OnlyCalls Lawful := by
  have hstart : ∀ replan, (startPlan registries envelope workflow snapshot runId
      replan).OnlyCalls Lawful :=
    fun replan => (startPlan_founds registries rfl replan).mono fun _ => lawful_of_founding
  refine .bind ((Program.onlyCalls_perform _).2 trivial) fun found => ?_
  split
  · exact hstart false
  · split
    · exact hstart true
    · refine .bind ((Program.onlyCalls_perform _).2 trivial) fun _ => ?_
      refine .bind ((Program.onlyCalls_perform _).2 trivial) fun _ => ?_
      exact (DomainEventHandler.enqueueFirstAction_writes envelope _).lawful (by decide)

theorem handleSettled_lawful {nodeId : String} {status : SubTaskStatus}
    (hstatus : status = .completed ∨ status = .failed) :
    (SubAgentCoordinator.handleSettled envelope runId nodeId status).OnlyCalls Lawful := by
  refine .bind ((Program.onlyCalls_perform _).2 hstatus) fun answer => ?_
  split
  · exact (trace_writes (List.mem_singleton_self Part.traces) _ _ _ _).lawful (by decide)
  · split
    · exact (trace_writes (List.mem_singleton_self Part.traces) _ _ _ _).lawful (by decide)
    · exact (SubAgentCoordinator.settleAdvance_writes envelope _ _ _ _).lawful (by decide)

/-- Whatever is delivered, the handlers save new graphs only and settle nodes in terminal
statuses. -/
theorem dispatch_lawful (registries : Registries) (message : Message) :
    (RecursionRunner.dispatch registries message).OnlyCalls Lawful := by
  unfold RecursionRunner.dispatch
  cases hkind : message.envelope.event.kind with
  | agentAction planId actionId =>
      exact (ActionEventHandler.handle_writes _ _).lawful (by decide)
  | subagentTask runId nodeId =>
      unfold SubAgentCoordinator.handle
      rw [hkind]
      exact (SubAgentCoordinator.handleTask_writes _ _ _ _).lawful (by decide)
  | subagentCompleted runId nodeId status =>
      unfold SubAgentCoordinator.handle SubAgentCoordinator.handleCompleted
      rw [hkind]
      dsimp only
      split
      · exact handleSettled_lawful (.inl rfl)
      · split
        · exact handleSettled_lawful (.inr rfl)
        · exact (trace_writes (List.mem_singleton_self Part.traces) _ _ _ _).lawful (by decide)
  | _ =>
      dsimp only
      unfold DomainEventHandler.handle
      split
      · exact (trace_writes (List.mem_singleton_self Part.traces) _ _ _ _).lawful (by decide)
      · refine .bind ((ContextProvider.hydrate_writes _ _ _).lawful (by simp)) fun snapshot => ?_
        dsimp only
        split
        · exact handleOrchestrated_lawful registries _
        · exact handlePlan_lawful registries _

end Lawful

/-- One handling of a message under a script of faults. -/
structure Handling where
  message : Message
  faults : FaultScript Exc := fun _ => none

namespace Handling

variable (env : Env) (handling : Handling) (w : World MemoryStateStore)

def run : Except Exc Unit × Logged Call (World MemoryStateStore) :=
  (env.sem.inject handling.faults).exec
    (RecursionRunner.dispatch env.registries handling.message) { state := w }

/-- What the writes of graphs that took place call for and the calls after them have not
done. -/
def owed : List Debt := (graphDebts.account env.sem w (handling.run env w).2.log).owed

end Handling

/-- The world after a sequence of handlings. -/
def handleAll (env : Env) (w : World MemoryStateStore) (handlings : List Handling) :
    World MemoryStateStore :=
  handlings.foldl (fun w handling => (handling.run env w).2.state) w

/-- No handling is aborted between a write of a graph and the last call that it calls
for. -/
def Unbroken (env : Env) : World MemoryStateStore → List Handling → Prop
  | _, [] => True
  | w, handling :: handlings =>
      (∀ x, (handling.run env w).1 = .error x → handling.owed env w = []) ∧
        Unbroken env (handling.run env w).2.state handlings

/-- The events, results and reports have kept up with the stored graphs. -/
structure CaughtUp (w : World MemoryStateStore) : Prop where
  dispatched : ∀ workspaceId runId g, w.store.getTaskGraph workspaceId runId = some g →
    ∀ n ∈ g.allNodes, n.status = .running → n.nodeId ∈ w.taskNodes workspaceId runId
  recorded : ∀ workspaceId runId g, w.store.getTaskGraph workspaceId runId = some g →
    ∀ n ∈ g.nodes, n.status = .completed → g.isSynthesizer n.nodeId = false →
      n.nodeId ∈ Dict.keys (w.store.subAgentResults (workspaceId, runId))
  reported : ∀ workspaceId runId g, w.store.getTaskGraph workspaceId runId = some g →
    g.Finished → .runCompletedById workspaceId runId ∈ w.syncCalls
  claimed : ∀ workspaceId runId g, w.store.getTaskGraph workspaceId runId = some g →
    ¬ g.Unclaimed

section Runs

variable {env : Env} {w : World MemoryStateStore}

theorem caughtUp_of_not_due (h : ∀ d, ¬ w.Due d) : CaughtUp w := by
  refine ⟨fun workspaceId runId g hg n hn hrunning => ?_,
    fun workspaceId runId g hg n hn hcompleted hordinary => ?_,
    fun workspaceId runId g hg hfinished => ?_, fun workspaceId runId g hg hunclaimed => ?_⟩
  · by_contra hnot
    exact h (.task workspaceId runId n.nodeId) ⟨⟨g, hg, n, hn, rfl, hrunning⟩, hnot⟩
  · by_contra hnot
    exact h (.result workspaceId runId n.nodeId)
      ⟨⟨g, hg, n, hn, rfl, hcompleted, hordinary⟩, hnot⟩
  · by_contra hnot
    exact h (.completion workspaceId runId) ⟨⟨g, hg, hfinished⟩, hnot⟩
  · exact h (.claim workspaceId runId) ⟨⟨g, hg, hunclaimed⟩, trivial⟩

/-- A handling that is not aborted in between leaves nothing due. -/
theorem run_not_due {handling : Handling} (h : Charted w) (hdue : ∀ d, ¬ w.Due d)
    (hunbroken : ∀ x, (handling.run env w).1 = .error x → handling.owed env w = []) :
    Charted (handling.run env w).2.state ∧ ∀ d, ¬ (handling.run env w).2.state.Due d := by
  have haudited : (RecursionRunner.dispatch env.registries handling.message).wp
      (env.sem.inject handling.faults).step (fun _ t => Charted t.state ∧
        ∀ d, t.state.Due d → d ∈ (graphDebts.account env.sem w t.log).owed) { state := w } :=
    Program.wp_audited (audited env) (dispatch_lawful _ _) h hdue
  have hclears : Clears env (RecursionRunner.dispatch env.registries handling.message) w [] :=
    dispatch_clears env.registries handling.message h
  have hreturns := hclears handling.faults w { state := w } rfl rfl (List.nil_subset _)
  rw [Program.wp_step_iff] at haudited hreturns
  have howed : handling.owed env w = [] := by
    cases hresult : (handling.run env w).1 with
    | error x => exact hunbroken x hresult
    | ok a => exact hreturns ⟨a, hresult⟩
  refine ⟨haudited.1, fun d hd => ?_⟩
  have hmem : d ∈ handling.owed env w := haudited.2 d hd
  rw [howed] at hmem
  cases hmem

theorem handleAll_not_due {handlings : List Handling} (h : Charted w) (hdue : ∀ d, ¬ w.Due d)
    (hunbroken : Unbroken env w handlings) : ∀ d, ¬ (handleAll env w handlings).Due d := by
  induction handlings generalizing w with
  | nil => exact hdue
  | cons handling handlings ih =>
      obtain ⟨hcharted, hrun⟩ := run_not_due h hdue hunbroken.1
      exact ih hcharted hrun hunbroken.2

theorem Unbroken.of_append {before after : List Handling}
    (h : Unbroken env w (before ++ after)) : Unbroken env w before := by
  induction before generalizing w with
  | nil => trivial
  | cons handling before ih => exact ⟨h.1, ih h.2⟩

/-- In a run in which no handling is aborted in between, the events, results and reports
keep up with the stored graphs all along. -/
theorem no_lost_dispatch (env : Env) {handlings : List Handling}
    (hunbroken : Unbroken env { store := {} } handlings) {before after : List Handling}
    (hrun : handlings = before ++ after) : CaughtUp (handleAll env { store := {} } before) := by
  subst hrun
  refine caughtUp_of_not_due (handleAll_not_due ?_ ?_ hunbroken.of_append)
  · constructor
    · rintro key g ⟨⟩
    · rintro key g ⟨⟩
  · rintro d ⟨⟨g, hg, -⟩, -⟩
    cases hg

end Runs

section Samples

/-- A handling in which call number `n` raises before it takes place. -/
def abortedAt (n : ℕ) (message : Message) : Handling :=
  { message := message
    faults := fun i => if i = n then some (.before (.valueError "unavailable")) else none }

/-- The seed is aborted once its node is dispatched, and the completion of the node once it
is reported; each is delivered again. -/
def sampleHandlings : List Handling :=
  [abortedAt 12 { envelope := correlatedSeed }, { message := { envelope := correlatedSeed } },
    abortedAt 4 (completionOf "node" "completed"), { message := completionOf "node" "completed" }]

theorem no_lost_dispatch_sample :
    CaughtUp (handleAll orchestratedEnv { store := {} } sampleHandlings) := by
  refine no_lost_dispatch orchestratedEnv ?_ (List.append_nil sampleHandlings).symm
  exact ⟨fun _ _ => by decide, fun _ _ => by decide, fun _ _ => by decide, fun _ _ => by decide,
    trivial⟩

/-- Every handling that raises is followed by one of the same message that returns. -/
def Redelivered (env : Env) (w : World MemoryStateStore) (handlings : List Handling) : Prop :=
  ∀ before handling after x, handlings = before ++ handling :: after →
    (handling.run env (handleAll env w before)).1 = .error x →
      ∃ between again rest, after = between ++ again :: rest ∧
        again.message = handling.message ∧
          (again.run env (handleAll env w (before ++ handling :: between))).1 = .ok ()

/-- The seed is aborted once its node is claimed and before the task event is enqueued: the
redelivered seed finds the graph and is taken for a duplicate. -/
theorem dispatch_lost_on_redelivery :
    ¬ ∀ (env : Env) (handlings : List Handling), Redelivered env { store := {} } handlings →
      CaughtUp (handleAll env { store := {} } handlings) := by
  intro h
  have hcaughtUp := h orchestratedEnv
    [abortedAt 10 { envelope := correlatedSeed }, { message := { envelope := correlatedSeed } }] ?_
  · have hgraph : ((handleAll orchestratedEnv { store := {} }
        [abortedAt 10 { envelope := correlatedSeed },
          { message := { envelope := correlatedSeed } }]).store.getTaskGraph "ws" "run").map
          (fun g => g.allNodes.any fun n => n.status = .running) = some true := by
      decide
    have hevents : (handleAll orchestratedEnv { store := {} }
        [abortedAt 10 { envelope := correlatedSeed },
          { message := { envelope := correlatedSeed } }]).taskNodes "ws" "run" = [] := by
      decide
    obtain ⟨g, hg, hany⟩ := Option.map_eq_some_iff.1 hgraph
    obtain ⟨n, hn, hrunning⟩ := List.any_eq_true.1 hany
    have hmem := hcaughtUp.dispatched _ _ g hg n hn (of_decide_eq_true hrunning)
    rw [hevents] at hmem
    cases hmem
  · rintro before handling after x hsplit hraises
    cases before with
    | nil =>
        obtain ⟨rfl, rfl⟩ := List.cons.inj hsplit
        exact ⟨[], _, [], rfl, rfl, rfl⟩
    | cons first before =>
        obtain ⟨rfl, hrest⟩ := List.cons.inj hsplit
        cases before with
        | nil =>
            obtain ⟨rfl, rfl⟩ := List.cons.inj hrest
            cases hraises
        | cons second before =>
            have hnil := (List.cons.inj hrest).2
            simp at hnil

end Samples

end PrismAgent
