import PrismAgent.Application.RecursionRunner
import PrismAgent.Application.Writes
import PrismAgent.Sequential.Invariant

/-!
# What leaves the plans of a run alone

Deliveries of completions, ignored events and the start of a task graph write no plans and
execute nothing. `Idle` says what they may do, `idle` is the contract they respect, and
`Sequential.idle` that they keep the invariant of a sequential run.
-/

namespace PrismAgent

open Effect
open SubAgentRunner (subPlanId)

variable {orchestrated : Prop}

/-- Plans and executions stay as they are, and only announcements and tasks of an orchestrated
run are enqueued. -/
structure Idle (orchestrated : Prop) (w t : World MemoryStateStore) : Prop where
  plans : t.store.plans = w.store.plans
  planWrites : t.planWrites = w.planWrites
  executions : t.executions = w.executions
  queue : ∃ events, t.queue = w.queue ++ events ∧
    ∀ e ∈ events, Announcement e ∨ orchestrated ∧ IsTask e
  tidy : Tidy orchestrated t

/-- No plans are written and nothing is executed; without orchestration graphs are single and
advancing one claims nothing. -/
def idle (orchestrated : Prop) : Contract Call Call.Answer Exc where
  calls
    | .saveTaskGraph graph => ¬orchestrated → graph.Single
    | .claimReadyNodes _ _ => orchestrated
    | .advanceTaskGraph _ _ _ _ => True
    | .saveContextSnapshot snapshot => snapshot.context.workspaceId = snapshot.workspaceId
    | .enqueue envelope => Announcement envelope ∨ orchestrated ∧ IsTask envelope
    | call => call.writesIn unobserved = true
  answers
    | .advanceTaskGraph _ _ _ _, .ok (some advance) =>
        ¬orchestrated → advance.newlyReady = [] ∧ advance.dispatchSynthesizer = none
    | _, _ => True

namespace TaskGraph.Single

variable {g : TaskGraph}

theorem withNodeStatus (h : g.Single) (nodeId : String) (status : SubTaskStatus) :
    (g.withNodeStatus nodeId status).Single := by
  obtain ⟨hlength, hsynthesizer⟩ := h
  constructor
  · simpa [TaskGraph.withNodeStatus] using hlength
  · simp [TaskGraph.withNodeStatus, hsynthesizer]

/-- Completing the only node makes nothing ready. -/
theorem readyNodes_eq_nil (h : g.Single) {nodeId : String} {node : SubTask}
    (hnode : g.getNode nodeId = some node) (completed : Finset String) :
    (g.withNodeStatus nodeId .completed).readyNodes completed = [] := by
  obtain ⟨hlength, hsynthesizer⟩ := h
  unfold getNode at hnode
  rw [hsynthesizer] at hnode
  match hnodes : g.nodes with
  | [] => simp [hnodes] at hnode
  | [n] =>
      have hid : n.nodeId = nodeId := by
        by_contra hne
        simp [hnodes, hne] at hnode
      simp [readyNodes, TaskGraph.withNodeStatus, hnodes, hid]
  | n :: m :: nodes => simp [hnodes] at hlength

/-- Advancing a single graph claims nothing and leaves it single. -/
theorem planAdvance (h : g.Single) (nodeId : String) (status : SubTaskStatus) :
    ((g.planAdvance nodeId status).newlyReady = [] ∧
      (g.planAdvance nodeId status).dispatchSynthesizer = none) ∧
      (g.planAdvance nodeId status).graph.Single := by
  have hgraph := h.withNodeStatus nodeId status
  have hsynthesizer : (g.withNodeStatus nodeId status).isSynthesizer nodeId = false := by
    unfold isSynthesizer
    rw [hgraph.2]
  unfold TaskGraph.planAdvance
  split
  · exact ⟨⟨rfl, rfl⟩, h⟩
  next node hnode =>
    split
    · exact ⟨⟨rfl, rfl⟩, h⟩
    · dsimp only
      split
      · exact ⟨⟨rfl, rfl⟩, hgraph⟩
      · split
        · exact ⟨⟨rfl, rfl⟩, hgraph⟩
        next hcompleted =>
          obtain rfl : status = .completed := not_not.1 hcompleted
          rw [hsynthesizer, h.readyNodes_eq_nil hnode, hgraph.2]
          simp only [Bool.false_eq_true, ne_eq, not_true_eq_false, if_false]
          split
          · exact ⟨⟨rfl, rfl⟩, hgraph⟩
          · split
            · exact ⟨⟨rfl, rfl⟩, hgraph⟩
            · exact ⟨⟨rfl, rfl⟩, hgraph⟩

end TaskGraph.Single

theorem Writes.respects_idle {α : Type} {parts : List Part} {p : App α} (hp : Writes parts p)
    (hparts : ∀ part ∈ parts, part ∈ unobserved) :
    p.Respects (idle orchestrated) fun a => p.MayReturn a := by
  refine Program.OnlyCalls.respects_mayReturn (hp.mono hparts) fun call hcall => ?_
  cases call with
  | saveTaskGraph | claimReadyNodes | saveContextSnapshot | enqueue => cases hcall
  | advanceTaskGraph => trivial
  | _ => exact hcall

section Idle

variable (env : Env) {w t : World MemoryStateStore} {α : Type} {Q : α → Prop}

theorem Idle.refl (h : Tidy orchestrated w) : Idle orchestrated w w :=
  ⟨rfl, rfl, rfl, ⟨[], (List.append_nil _).symm, List.forall_mem_nil _⟩, h⟩

theorem Idle.trans {u : World MemoryStateStore} (h : Idle orchestrated w t)
    (h' : Idle orchestrated t u) : Idle orchestrated w u := by
  obtain ⟨events, hqueue, hevents⟩ := h.queue
  obtain ⟨events', hqueue', hevents'⟩ := h'.queue
  refine ⟨h'.plans.trans h.plans, h'.planWrites.trans h.planWrites,
    h'.executions.trans h.executions, ⟨events ++ events', ?_, ?_⟩, h'.tidy⟩
  · rw [hqueue', hqueue, List.append_assoc]
  · exact List.forall_mem_append.2 ⟨hevents, hevents'⟩

/-- What idles keeps the invariant. -/
theorem Sequential.idle (h : Sequential orchestrated w) (ht : Idle orchestrated w t) :
    Sequential orchestrated t := by
  obtain ⟨events, hqueue, hevents⟩ := ht.queue
  refine ⟨fun key => ?_, fun e he => ?_, ht.tidy⟩
  · have hsame : t.track key = w.track key := by
      unfold World.track
      rw [ht.plans, ht.planWrites, ht.executions]
    rw [hsame]
    exact h.tracks key
  · unfold AsksForStored
    rw [ht.plans]
    rw [hqueue] at he
    rcases List.mem_append.1 he with he | he
    · exact h.queue e he
    · exact (hevents e he).imp_right .inl

theorem single_update {graphs : String × String → Option TaskGraph} {key : String × String}
    {graph : TaskGraph} (h : ∀ key g, graphs key = some g → g.Single) (hgraph : graph.Single) :
    ∀ key' g, Function.update graphs key (some graph) key' = some g → g.Single := by
  intro key' g hg
  by_cases hkey : key' = key
  · subst hkey
    rw [Function.update_self] at hg
    rwa [← Option.some.inj hg]
  · rw [Function.update_of_ne hkey] at hg
    exact h key' g hg

/-- A call of the contract idles and answers by the contract. -/
theorem sem_idles {call : Call} (hcall : (PrismAgent.idle orchestrated).calls call)
    (h : Tidy orchestrated w) :
    (PrismAgent.idle orchestrated).answers call (env.sem call w).1 ∧
      Idle orchestrated w (env.sem call w).2 := by
  have hquiet : ∀ {t : World MemoryStateStore}, t.store.plans = w.store.plans →
      t.planWrites = w.planWrites → t.executions = w.executions → t.queue = w.queue →
      Tidy orchestrated t → Idle orchestrated w t := by
    intro t hplans hwrites hexecutions hqueue htidy
    refine ⟨hplans, hwrites, hexecutions, ⟨[], ?_, List.forall_mem_nil _⟩, htidy⟩
    rw [hqueue, List.append_nil]
  have hother : call.writesIn unobserved = true → Idle orchestrated w (env.sem call w).2 := by
    intro hwrites
    have hmoves := sem_moves env (w := w) hwrites
    refine hquiet hmoves.table ?_ ?_ ?_ (h.moves hmoves)
    · rw [hmoves.planWrites, List.append_nil]
    · rw [hmoves.executions, List.append_nil]
    · rw [hmoves.queue, List.append_nil]
  cases call with
  | saveTaskGraph graph =>
      exact ⟨trivial, hquiet rfl rfl rfl rfl
        ⟨fun hsingle => single_update (h.single hsingle) (hcall hsingle), h.contexts⟩⟩
  | claimReadyNodes workspaceId runId =>
      refine ⟨trivial, ?_⟩
      simp only [Env.sem, StateStore.claimReadyNodes, MemoryStateStore.claimReadyNodes]
      cases hstored : w.store.getTaskGraph workspaceId runId with
      | none => exact hquiet rfl rfl rfl rfl ⟨h.single, h.contexts⟩
      | some g =>
          exact hquiet rfl rfl rfl rfl ⟨fun hsingle => absurd hcall hsingle, h.contexts⟩
  | advanceTaskGraph workspaceId runId nodeId status =>
      simp only [Env.sem, StateStore.advanceTaskGraph, MemoryStateStore.advanceTaskGraph]
      cases hstored : w.store.getTaskGraph workspaceId runId with
      | none => exact ⟨trivial, hquiet rfl rfl rfl rfl ⟨h.single, h.contexts⟩⟩
      | some g =>
          have hadvance := fun hsingle => (h.single hsingle _ g hstored).planAdvance nodeId status
          exact ⟨fun hsingle => (hadvance hsingle).1, hquiet rfl rfl rfl rfl
            ⟨fun hsingle => single_update (h.single hsingle) (hadvance hsingle).2, h.contexts⟩⟩
  | saveContextSnapshot snapshot =>
      refine ⟨trivial, hquiet rfl rfl rfl rfl ⟨h.single, fun key stored hstored => ?_⟩⟩
      by_cases hkey : key = (snapshot.workspaceId, snapshot.snapshotId)
      · subst hkey
        have hsaved : some snapshot = some stored :=
          (Function.update_self _ _ w.store.contextSnapshots).symm.trans hstored
        obtain rfl := Option.some.inj hsaved
        exact hcall
      · exact h.contexts key stored
          ((Function.update_of_ne hkey _ w.store.contextSnapshots).symm.trans hstored)
  | enqueue envelope =>
      refine ⟨trivial, rfl, rfl, rfl, ⟨[envelope], rfl, ?_⟩, h.single, h.contexts⟩
      exact List.forall_mem_singleton.2 hcall
  | _ => exact ⟨trivial, hother hcall⟩

/-- A program that respects `idle` idles. -/
theorem wp_idle {p : App α} (hp : p.Respects (PrismAgent.idle orchestrated) Q)
    (h : Tidy orchestrated w) :
    p.wp env.sem.step (fun r t => Idle orchestrated w t ∧ ∀ a, r = .ok a → Q a) w := by
  refine Program.wp_of_respects ?_ hp (Idle.refl h)
  intro s call r t hcall hstep hs
  obtain ⟨rfl, rfl⟩ : r = (env.sem call s).1 ∧ t = (env.sem call s).2 :=
    ⟨congrArg Prod.fst hstep, congrArg Prod.snd hstep⟩
  obtain ⟨hanswer, hidle⟩ := sem_idles env hcall hs.tidy
  exact ⟨hanswer, hs.trans hidle⟩

end Idle

section Respects

variable {envelope : EventEnvelope}

theorem respects_idle_call {call : Call} (hcall : (idle orchestrated).calls call) :
    (perform call).Respects (idle orchestrated) fun _ => True :=
  Program.respects_perform hcall fun _ _ => trivial

theorem Writes.respects_idle_true {α : Type} {parts : List Part} {p : App α}
    (hp : Writes parts p) (hparts : ∀ part ∈ parts, part ∈ unobserved) :
    p.Respects (idle orchestrated) fun _ => True :=
  (hp.respects_idle hparts).mono fun _ _ => trivial

namespace SubAgentCoordinator

theorem dispatchNode_respects_idle (h : orchestrated) (graph : TaskGraph) (node : SubTask) :
    (dispatchNode envelope graph node).Respects (idle orchestrated) fun _ => True := by
  refine .bind (respects_idle_call rfl) fun eventId _ => ?_
  exact .bind (respects_idle_call (.inr ⟨h, _, _, rfl⟩)) fun _ _ => respects_idle_call rfl

theorem dispatchNodes_respects_idle (graph : TaskGraph) (nodes : List SubTask)
    (h : nodes ≠ [] → orchestrated) :
    (dispatchNodes envelope graph nodes).Respects (idle orchestrated) fun _ => True := by
  induction nodes with
  | nil => trivial
  | cons node nodes ih =>
      exact .bind (dispatchNode_respects_idle (h (List.cons_ne_nil _ _)) _ _) fun _ _ =>
        ih fun _ => h (List.cons_ne_nil _ _)

/-- The settle of a sub-plan: only an orchestrated run dispatches nodes. -/
theorem handleCompleted_respects_idle (runId nodeId status : String) :
    (handleCompleted envelope runId nodeId status).Respects (idle orchestrated)
      fun _ => True := by
  have htrace : ∀ eventName, (trace envelope.event eventName).Respects (idle orchestrated)
      fun _ => True := fun eventName => respects_idle_call rfl
  have hsync : ∀ call, (sync call).Respects (idle orchestrated) fun _ => True := fun call =>
    respects_idle_call rfl
  have hsettled : ∀ status', (handleSettled envelope runId nodeId status').Respects
      (idle orchestrated) fun _ => True := by
    intro status'
    refine .bind (Program.respects_perform trivial fun _ h => h) ?_
    rintro (_ | advance) hadvance
    · exact htrace _
    dsimp only
    split
    · exact htrace _
    refine .bind ((recordResult_writes _ _ _ _ _).respects_idle_true (by decide)) fun _ _ => ?_
    split
    · exact .bind (hsync _) fun _ _ => htrace _
    · refine .bind (dispatchNodes_respects_idle _ _ fun hready => ?_) fun _ _ => ?_
      · exact not_not.1 fun hnot => hready (hadvance hnot).1
      refine .bind (Q := fun _ => True) ?_ fun _ _ => ?_
      · unfold dispatchSynthesizer
        split
        next synthesizer hsynthesizer =>
          refine dispatchNode_respects_idle (not_not.1 fun hnot => ?_) _ _
          rw [(hadvance hnot).2] at hsynthesizer
          cases hsynthesizer
        next => trivial
      refine .bind (Q := fun _ => True) ?_ fun _ _ => ?_
      · unfold completeRun
        split
        · exact .bind (hsync _) fun _ _ => htrace _
        · trivial
      · unfold blockRun
        split
        · exact .bind (hsync _) fun _ _ => htrace _
        · trivial
  unfold handleCompleted
  split
  · exact hsettled _
  · split
    · exact hsettled _
    · exact htrace _

end SubAgentCoordinator

/-- Announcements are ignored or settle a node; they start no plan. -/
theorem dispatch_respects_idle {registries : Registries} {message : Message}
    (h : Announcement message.envelope) :
    (RecursionRunner.dispatch registries message).Respects (idle orchestrated)
      fun _ => True := by
  unfold RecursionRunner.dispatch
  rcases h with ⟨hkind, hterminal⟩ | ⟨runId, nodeId, status, hkind⟩
  · have hignored : (route registries.workflows message.envelope).workflow = none := by
      unfold route
      dsimp only
      rw [PMTriggerPolicy.evaluate_terminal hterminal]
      rfl
    rw [hkind]
    dsimp only
    unfold DomainEventHandler.handle
    rw [hignored]
    exact respects_idle_call rfl
  · rw [hkind]
    dsimp only
    unfold SubAgentCoordinator.handle
    rw [hkind]
    exact SubAgentCoordinator.handleCompleted_respects_idle runId nodeId status

namespace DomainEventHandler

variable {snapshot : ContextSnapshot} {workflow : WorkflowDefinition}

theorem dispatchReady_respects_idle (h : orchestrated) (workspaceId agentRunId : String)
    (projectId : Option String) (nodes : List SubTask) :
    (dispatchReady envelope workspaceId agentRunId projectId nodes).Respects
      (idle orchestrated) fun _ => True := by
  induction nodes with
  | nil => trivial
  | cons node nodes ih =>
      refine .bind (respects_idle_call rfl) fun eventId _ => ?_
      refine .bind (respects_idle_call (.inr ⟨h, _, _, rfl⟩)) fun _ _ => ?_
      exact .bind (respects_idle_call rfl) fun _ _ => ih

/-- The start of a task graph plans nothing. -/
theorem handleOrchestrated_respects_idle (h : orchestrated) (registries : Registries)
    (hsnapshot : snapshot.context.workspaceId = snapshot.workspaceId) (agentRunId : String) :
    (handleOrchestrated registries envelope workflow snapshot agentRunId).Respects
      (idle orchestrated) fun _ => True := by
  refine .bind (respects_idle_call rfl) ?_
  rintro (_ | graph) -
  · refine .bind ((unlessTerminal_writes _ _ _).respects_idle_true (by decide)) ?_
    rintro (_ | _) -
    · trivial
    · refine .bind (respects_liftExcept _) fun graph _ => ?_
      refine .bind (respects_idle_call hsnapshot) fun _ _ => ?_
      refine .bind (respects_idle_call fun hsingle => absurd h hsingle) fun _ _ => ?_
      refine .bind (respects_idle_call rfl) fun _ _ => ?_
      refine .bind (respects_idle_call h) ?_
      rintro (_ | ⟨node, nodes⟩) -
      · exact .bind (respects_idle_call rfl) fun _ _ => respects_idle_call rfl
      · exact dispatchReady_respects_idle h _ _ _ _
  · exact respects_idle_call rfl

end DomainEventHandler

end Respects

end PrismAgent
