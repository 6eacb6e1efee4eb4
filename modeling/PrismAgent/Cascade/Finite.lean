import PrismAgent.Cascade.Causality
import PrismAgent.Effect.Cascade
import PrismAgent.RunIdentity.Runs

/-!
# Every cascade is finite

Pending events are delivered once each, in any order; events that lie too deep are dropped.
The handling of an event enqueues deeper events and asides, and asides enqueue nothing:
ranked by what is left of the depth, a delivery spends its event.
-/

namespace PrismAgent

open Effect
open RecursionRunner (dispatch recordMaxDepthFailure)

/-- The tools emit nothing but insights in the wake of the plan's source event. -/
def ToolsEmitInsights (env : Env) : Prop :=
  ∀ tick action context result, env.execute tick action context = .ok result →
    ∀ e ∈ result.emittedEvents,
      ∃ eventId, e = .wrap (CreateDashboardInsightTool.insightEvent eventId action context)

/-- One step of a run: a pending event, wherever it stands in the queue, is handled or, if it
lies too deep, dropped. -/
inductive Delivers {σ : Type} [StateStore σ] (env : Env) (maxDepth : ℕ) :
    World σ → World σ → Prop
  | handle {w : World σ} {before after : List EventEnvelope} {e : EventEnvelope} (budget : ℕ)
      (hqueue : w.queue = before ++ e :: after) (hdepth : e.event.causality.depth ≤ maxDepth) :
      Delivers env maxDepth w
        (deliver env { w with queue := before ++ after } { envelope := e, budget := budget })
  | drop {w : World σ} {before after : List EventEnvelope} {e : EventEnvelope}
      (hqueue : w.queue = before ++ e :: after) (hdepth : maxDepth < e.event.causality.depth) :
      Delivers env maxDepth w
        (env.sem.exec (recordMaxDepthFailure e.event) { w with queue := before ++ after }).2

section Queue

variable {σ : Type} [StateStore σ] (env : Env) {K : EventCausality → Prop} {depth : ℕ}

theorem queue_sem (call : Call) (w : World σ) :
    (env.sem call w).2.queue =
      match call with
      | .enqueue e => w.queue ++ [e]
      | _ => w.queue := by
  cases call <;> rfl

/-- A program without an enqueue leaves the queue as it is. -/
theorem queue_exec_of_onlyCalls {α : Type} {p : App α}
    (hp : p.OnlyCalls fun call => ∀ e, call ≠ .enqueue e) (w : World σ) :
    (env.sem.exec p w).2.queue = w.queue := by
  have hwp : p.wp env.sem.step (fun _ t => t.queue = w.queue) w := by
    refine Program.wp_of_onlyCalls (I := fun t : World σ => t.queue = w.queue) ?_ hp rfl
    intro s call r t hcall hstep hs
    have ht : t = (env.sem call s).2 := congrArg Prod.snd hstep
    rw [ht, queue_sem, ← hs]
    split
    · next e => exact absurd rfl (hcall e)
    · rfl
  rw [Program.wp_step_iff] at hwp
  exact hwp

/-- The queue has grown by events that the contract allows. -/
def Grown (K : EventCausality → Prop) (depth : ℕ) (w t : World σ) : Prop :=
  ∃ added, t.queue = w.queue ++ added ∧ ∀ e ∈ added, K e.event.causality ∧ InWake depth e

variable {env}

theorem Grown.sem {call : Call} (hcall : (wake K depth).calls call) {w t : World σ}
    (h : Grown K depth w t) : Grown K depth w (env.sem call t).2 := by
  obtain ⟨added, hqueue, hadded⟩ := h
  unfold Grown
  rw [queue_sem]
  split
  next e =>
    refine ⟨added ++ [e], by rw [hqueue, List.append_assoc], fun e' he' => ?_⟩
    rcases List.mem_append.1 he' with he' | he'
    · exact hadded e' he'
    · rw [List.mem_singleton.1 he']
      exact hcall
  next => exact ⟨added, hqueue, hadded⟩

theorem executeOne_answers (htools : ToolsEmitInsights env) (plan : AgentPlan)
    (action : PlannedAction) (context : AgentContext) (w : World σ) :
    (wake K depth).answers (.executeOne plan action context)
      (env.sem (.executeOne plan action context) w).1 := by
  change (wake K depth).answers (.executeOne plan action context)
    (env.runTool w.tick action context)
  unfold Env.runTool
  split
  · trivial
  · cases hresult : env.execute w.tick action context with
    | error x => trivial
    | ok result => exact htools _ _ _ result hresult

/-- A program that keeps to a wake adds what lies in it, over a store that answers so. -/
theorem exec_grown {α : Type} {p : App α} {Q : α → Prop} (hp : p.Respects (wake K depth) Q)
    {J : World σ → Prop}
    (hJ : ∀ call w, (wake K depth).calls call → J w →
      (wake K depth).answers call (env.sem call w).1 ∧ J (env.sem call w).2)
    {w : World σ} (hw : J w) :
    Grown K depth w (env.sem.exec p w).2 ∧ J (env.sem.exec p w).2 ∧
      ∀ a, (env.sem.exec p w).1 = .ok a → Q a := by
  have hwp : p.wp env.sem.step
      (fun r t => (Grown K depth w t ∧ J t) ∧ ∀ a, r = .ok a → Q a) w := by
    refine Program.wp_of_respects (I := fun t => Grown K depth w t ∧ J t) ?_ hp
      ⟨⟨[], (List.append_nil _).symm, List.forall_mem_nil _⟩, hw⟩
    rintro s call r t hcall hstep ⟨hgrown, hs⟩
    rw [Semantics.step] at hstep
    obtain ⟨rfl, rfl⟩ := Prod.mk.inj hstep
    exact ⟨(hJ call s hcall hs).1, hgrown.sem hcall, (hJ call s hcall hs).2⟩
  rw [Program.wp_step_iff] at hwp
  exact ⟨hwp.1.1, hwp.1.2, hwp.2⟩

/-- Every store answers when nothing is asked of causality. -/
theorem answers_true (htools : ToolsEmitInsights env) (call : Call) (w : World σ) :
    (wake (fun _ => True) depth).answers call (env.sem call w).1 := by
  cases call with
  | executeOne plan action context => exact executeOne_answers htools plan action context w
  | getContextSnapshot workspaceId snapshotRef =>
      cases h : (env.sem (.getContextSnapshot workspaceId snapshotRef) w).1 with
      | error x => trivial
      | ok found =>
          cases found with
          | none => trivial
          | some snapshot => trivial
  | _ => trivial

/-- What a delivery adds lies in the wake of its event. -/
theorem deliver_grown (htools : ToolsEmitInsights env) (w : World σ) (message : Message) :
    Grown (fun _ => True) message.envelope.event.causality.depth w (deliver env w message) :=
  (exec_grown (J := fun _ => True)
    (RecursionRunner.dispatch_wake (K := fun _ => True) (fun _ _ _ => trivial) env.registries
      message trivial)
    (fun call w _ _ => ⟨answers_true htools call w, trivial⟩) trivial).1

/-- Asides add nothing. -/
theorem deliver_aside {message : Message} (h : Aside message.envelope) (w : World σ) :
    (deliver env w message).queue = w.queue := by
  refine queue_exec_of_onlyCalls env ?_ w
  unfold dispatch
  rw [h.1]
  dsimp only
  rw [DomainEventHandler.handle_terminal _ h.terminal]
  exact (Program.onlyCalls_perform _).2 fun e => nofun

/-- A dropped event is only reported. -/
theorem recordMaxDepthFailure_onlyCalls (event : RuntimeEvent) :
    (recordMaxDepthFailure event).OnlyCalls fun call =>
      (∃ traceEvent, call = .appendTraceEvent traceEvent) ∨ ∃ report, call = .sync report := by
  refine Program.OnlyCalls.bind ((Program.onlyCalls_perform _).2 (Or.inl ⟨_, rfl⟩)) fun _ => ?_
  split
  · exact (Program.onlyCalls_perform _).2 (Or.inr ⟨_, rfl⟩)
  · trivial

theorem recordMaxDepthFailure_queue (event : RuntimeEvent) (w : World σ) :
    (env.sem.exec (recordMaxDepthFailure event) w).2.queue = w.queue := by
  refine queue_exec_of_onlyCalls env ?_ w
  refine (recordMaxDepthFailure_onlyCalls event).mono ?_
  rintro call (⟨traceEvent, rfl⟩ | ⟨report, rfl⟩)
  · exact fun e => nofun
  · exact fun e => nofun

end Queue

section Rank

instance (e : EventEnvelope) : Decidable (Aside e) :=
  inferInstanceAs (Decidable (_ ∧ _))

/-- What is left of the depth; asides come last. -/
def rank (maxDepth : ℕ) (e : EventEnvelope) : ℕ :=
  if Aside e then 0 else maxDepth + 2 - e.event.causality.depth

theorem rank_lt {maxDepth : ℕ} {e e' : EventEnvelope} (he : ¬Aside e)
    (hdepth : e.event.causality.depth ≤ maxDepth)
    (hwake : InWake e.event.causality.depth e') : rank maxDepth e' < rank maxDepth e := by
  unfold rank
  rw [if_neg he]
  split
  next => omega
  next haside =>
    have hlt := hwake.resolve_right haside
    omega

variable {σ : Type} [StateStore σ] {env : Env}

/-- Every step of a run spends an event. -/
theorem Delivers.spends (htools : ToolsEmitInsights env) {maxDepth : ℕ} {w w' : World σ}
    (h : Delivers env maxDepth w w') :
    Spends (fun w : World σ => w.queue) (rank maxDepth) w w' := by
  cases h with
  | @handle before after e budget hqueue hdepth =>
      by_cases haside : Aside e
      · refine ⟨before, e, after, [], hqueue, ?_, List.forall_mem_nil _⟩
        rw [List.append_nil]
        exact deliver_aside haside _
      · obtain ⟨added, hadd, hwake⟩ := deliver_grown htools { w with queue := before ++ after }
          { envelope := e, budget := budget }
        exact ⟨before, e, after, added, hqueue, hadd,
          fun e' he' => rank_lt haside hdepth (hwake e' he').2⟩
  | @drop before after e hqueue hdepth =>
      refine ⟨before, e, after, [], hqueue, ?_, List.forall_mem_nil _⟩
      rw [List.append_nil]
      exact recordMaxDepthFailure_queue e.event _

end Rank

section Linked

variable {env : Env} {w : World MemoryStateStore} {depth : ℕ}

/-- A linked causality whose children are linked. -/
def Inherits (causality : EventCausality) : Prop := causality.Linked ∧ causality.Rooted

theorem Inherits.child (causality : EventCausality) (parentEventId : String)
    (h : Inherits causality) : Inherits (causality.child parentEventId) :=
  h.1.child h.2 parentEventId

/-- The sources of the stored contexts are linked. -/
def SourcesLinked (w : World MemoryStateStore) : Prop :=
  ∀ key snapshot, w.store.contextSnapshots key = some snapshot →
    Inherits snapshot.context.sourceEvent.event.causality

theorem sem_sourcesLinked (htools : ToolsEmitInsights env) (call : Call)
    (w : World MemoryStateStore) (hcall : (wake Inherits depth).calls call)
    (h : SourcesLinked w) :
    (wake Inherits depth).answers call (env.sem call w).1 ∧
      SourcesLinked (env.sem call w).2 := by
  have hframe : call.writes ≠ some .contextSnapshots → SourcesLinked (env.sem call w).2 := by
    intro hwrites
    have hsame : (env.sem call w).2.store.contextSnapshots = w.store.contextSnapshots :=
      sem_same env (w := w) hwrites
    unfold SourcesLinked
    rw [hsame]
    exact h
  cases call with
  | saveContextSnapshot snapshot => exact ⟨trivial, forall_update h hcall⟩
  | getContextSnapshot workspaceId snapshotRef =>
      refine ⟨?_, hframe nofun⟩
      change (wake Inherits depth).answers (.getContextSnapshot workspaceId snapshotRef)
        (.ok (w.store.contextSnapshots (workspaceId, snapshotRef)))
      cases hstored : w.store.contextSnapshots (workspaceId, snapshotRef) with
      | none => trivial
      | some snapshot => exact h _ snapshot hstored
  | executeOne plan action context =>
      exact ⟨executeOne_answers htools plan action context w, hframe nofun⟩
  | _ => exact ⟨trivial, hframe nofun⟩

/-- Pending events and stored sources are linked. -/
structure RunLinked (w : World MemoryStateStore) : Prop where
  queue : ∀ e ∈ w.queue, Inherits e.event.causality
  sources : SourcesLinked w

/-- A step of a run keeps events and sources linked. -/
theorem Delivers.runLinked (htools : ToolsEmitInsights env) {maxDepth : ℕ}
    {w' : World MemoryStateStore} (hstep : Delivers env maxDepth w w') (h : RunLinked w) :
    RunLinked w' := by
  have hrest : ∀ {before after : List EventEnvelope} {e : EventEnvelope},
      w.queue = before ++ e :: after → ∀ e' ∈ before ++ after, Inherits e'.event.causality := by
    intro before after e hqueue e' he'
    refine h.queue e' ?_
    rw [hqueue]
    rcases List.mem_append.1 he' with he' | he'
    · exact List.mem_append_left _ he'
    · exact List.mem_append_right _ (List.mem_cons_of_mem _ he')
  cases hstep with
  | @handle before after e budget hqueue hdepth =>
      have he : Inherits e.event.causality := by
        refine h.queue e ?_
        rw [hqueue]
        simp
      obtain ⟨⟨added, hadd, hlinked⟩, hsources, -⟩ :=
        exec_grown (RecursionRunner.dispatch_wake Inherits.child env.registries
          { envelope := e, budget := budget } he)
          (sem_sourcesLinked htools) (w := { w with queue := before ++ after }) h.sources
      refine ⟨fun e' he' => ?_, hsources⟩
      change e' ∈ (env.sem.exec _ _).2.queue at he'
      rw [hadd] at he'
      rcases List.mem_append.1 he' with he' | he'
      · exact hrest hqueue e' he'
      · exact (hlinked e' he').1
  | @drop before after e hqueue hdepth =>
      have hrespects : (recordMaxDepthFailure e.event).Respects (wake Inherits 0)
          fun _ => True := by
        refine (recordMaxDepthFailure_onlyCalls e.event).respects ?_
        rintro call (⟨traceEvent, rfl⟩ | ⟨report, rfl⟩)
        · trivial
        · trivial
      obtain ⟨-, hsources, -⟩ := exec_grown hrespects (sem_sourcesLinked htools)
        (w := { w with queue := before ++ after }) h.sources
      refine ⟨fun e' he' => ?_, hsources⟩
      rw [recordMaxDepthFailure_queue] at he'
      exact hrest hqueue e' he'

end Linked

open ActionEventHandler in
/-- What is chained inline is a child of the event at hand. -/
theorem handleOne_chained {σ : Type} [StateStore σ] {env : Env} (htools : ToolsEmitInsights env)
    {inline : Bool} {envelope next : EventEnvelope} {w : World σ}
    (h : (env.sem.exec (handleOne inline envelope) w).1 = .ok (some next)) :
    next.event.causality = envelope.event.causality.child envelope.eventId := by
  have hspawns := @spawns_wake (fun _ => True) envelope.event.causality.depth envelope
    (fun _ _ _ => trivial) trivial le_rfl
  obtain ⟨-, -, hreturns⟩ := exec_grown (J := fun _ => True) (hspawns.handleOne inline)
    (fun call w _ _ => ⟨answers_true htools call w, trivial⟩) (w := w) trivial
  obtain ⟨plan, -, hemits⟩ := hreturns _ h next rfl
  exact EmitsFor.causality hemits

/-- Every cascade is finite: handling an event enqueues deeper events and asides that start
nothing, it chains its child, and no run goes on for ever, whatever the planner, the validator
and the tools answer. In the run of a linked seed all events are linked. -/
theorem cascades_finite {σ : Type} [StateStore σ] (env : Env) (htools : ToolsEmitInsights env)
    (maxDepth : ℕ) :
    (∀ (w : World σ) (message : Message), ∃ added,
      (deliver env w message).queue = w.queue ++ added ∧ ∀ e ∈ added,
        message.envelope.event.causality.depth + 1 ≤ e.event.causality.depth ∨
          (Aside e ∧ (route env.registries.workflows e).workflow = none)) ∧
    (∀ (w : World σ) (inline : Bool) (envelope next : EventEnvelope),
      (env.sem.exec (ActionEventHandler.handleOne inline envelope) w).1 = .ok (some next) →
        next.event.causality = envelope.event.causality.child envelope.eventId ∧
          envelope.event.causality.depth + 1 ≤ next.event.causality.depth ∧
          (envelope.event.causality.Linked → envelope.event.causality.Rooted →
            next.event.causality.Linked)) ∧
    (∀ run : ℕ → World σ, ∃ n, ¬Delivers env maxDepth (run n) (run (n + 1))) ∧
    ∀ (seed : EventEnvelope) (w : World MemoryStateStore),
      seed.event.causality.Linked → seed.event.causality.Rooted →
        Relation.ReflTransGen (Delivers env maxDepth) { store := {}, queue := [seed] } w →
          ∀ e ∈ w.queue, e.event.causality.Linked := by
  refine ⟨fun w message => ?_, fun w inline envelope next h => ?_, fun run => ?_,
    fun seed w hlinked hrooted hrun => ?_⟩
  · obtain ⟨added, hqueue, hwake⟩ := deliver_grown htools w message
    refine ⟨added, hqueue, fun e he => (hwake e he).2.imp_right fun haside => ⟨haside, ?_⟩⟩
    exact route_terminal env.registries haside.terminal
  · have hchild := handleOne_chained htools h
    refine ⟨hchild, ?_, fun hlinked hrooted => ?_⟩
    · rw [hchild]
      exact le_rfl
    · rw [hchild]
      exact (hlinked.child hrooted _).1
  · obtain ⟨n, hn⟩ := @exists_not_spends _ _ (fun w : World σ => w.queue) (rank maxDepth) run
    exact ⟨n, fun hstep => hn (hstep.spends htools)⟩
  · have hseed : RunLinked { store := {}, queue := [seed] } := by
      constructor
      · intro e he
        rw [List.mem_singleton.1 he]
        exact ⟨hlinked, hrooted⟩
      · rintro key snapshot ⟨⟩
    have hrunLinked : RunLinked w := by
      induction hrun with
      | refl => exact hseed
      | tail _ hstep ih => exact hstep.runLinked htools ih
    exact fun e he => (hrunLinked.queue e he).1

/-- The cascade of the sample seed. -/
theorem cascades_finite_sample :
    (∀ run : ℕ → World MemoryStateStore, ∃ n, ¬Delivers sampleEnv 10 (run n) (run (n + 1))) ∧
      ∀ w : World MemoryStateStore,
        Relation.ReflTransGen (Delivers sampleEnv 10) { store := {}, queue := [sampleSeed] } w →
          ∀ e ∈ w.queue, e.event.causality.Linked := by
  have htools : ToolsEmitInsights sampleEnv := by
    rintro _ _ _ _ ⟨⟩ e he
    cases he
  have hlinked : sampleSeed.event.causality.Linked := by
    refine ⟨rfl, ?_, ?_⟩
    · rintro _ ⟨⟩
    · rintro _ ⟨⟩
  obtain ⟨-, -, hfinite, hruns⟩ := cascades_finite (σ := MemoryStateStore) sampleEnv htools 10
  exact ⟨hfinite, fun w => hruns sampleSeed w hlinked fun _ => rfl⟩

/-- The sample skill, with dashboard insights for its tool. -/
def insightRegistries : Registries :=
  { sampleRegistries with
    skills :=
      { skills := [("skill",
          { id := "skill", version := "1", allowedTools := ["create_dashboard_insight"] })] }
    tools :=
      { tools := [("create_dashboard_insight",
          { id := "create_dashboard_insight", version := "1" })] } }

/-- The language model proposes an insight. -/
def insightProposal : AgentPlan :=
  { sampleProposal with
    actions :=
      [{ actionId := "a", planId := "", actionType := "insight",
         toolName := "create_dashboard_insight", instruction := "", idempotencyKey := "" }] }

def insightEnv : Env :=
  { Env.sample insightRegistries insightProposal with
    execute := fun _ action context =>
      .ok (CreateDashboardInsightTool.execute "insight" "result" action context)
    emitted_terminal := by
      rintro _ action context _ ⟨⟩ e he
      rw [List.mem_singleton.1 he]
      exact (aside_insight "insight" action context).terminal }

/-- The world after the delivery of the seed, its event taken off the queue. -/
def insightWorld : World MemoryStateStore :=
  { deliver insightEnv { store := {} } { envelope := sampleSeed } with queue := [] }

/-- The sample seed with a root, though its chain is empty. -/
def rootedSeed : EventEnvelope :=
  .wrap { kind := .domain, eventId := "run", eventType := "story.created", workspaceId := "ws",
          causality := { rootEventId := some "elsewhere" } }

/-- An insight lies no deeper than the action event that leads to it; and the children of a
seed with a root of its own do not begin their chain with it. -/
theorem insight_not_deeper :
    (¬∀ (env : Env), ToolsEmitInsights env → ∀ (w : World MemoryStateStore) (message : Message),
      w.queue = [] → ∀ e ∈ (deliver env w message).queue,
        message.envelope.event.causality.depth + 1 ≤ e.event.causality.depth ∨
          e.event.eventType = "agent_suggestion.created") ∧
    ¬∀ (env : Env), ToolsEmitInsights env → ∀ seed : EventEnvelope,
      seed.event.causality.Linked →
        ∀ e ∈ (deliver env ({ store := {} } : World MemoryStateStore)
          { envelope := seed }).queue, e.event.causality.Linked := by
  refine ⟨fun h => ?_, fun h => ?_⟩
  · have htools : ToolsEmitInsights insightEnv := by
      rintro _ action context _ ⟨⟩ e he
      exact ⟨"insight", List.mem_singleton.1 he⟩
    have hany : (deliver insightEnv insightWorld { envelope := sampleRequested }).queue.any
        (fun e => e.event.eventType = "insight.created" ∧ e.event.causality.depth = 1) = true := by
      decide
    obtain ⟨e, he, hinsight⟩ := List.any_eq_true.1 hany
    obtain ⟨htype, hdepth⟩ := of_decide_eq_true hinsight
    rcases h insightEnv htools insightWorld { envelope := sampleRequested } rfl e he with
      hdeeper | hsuggestion
    · rw [hdepth] at hdeeper
      exact absurd hdeeper (by decide)
    · rw [htype] at hsuggestion
      exact absurd hsuggestion (by decide)
  · have htools : ToolsEmitInsights sampleEnv := by
      rintro _ _ _ _ ⟨⟩ e he
      cases he
    have hlinked : rootedSeed.event.causality.Linked := by
      refine ⟨rfl, ?_, ?_⟩
      · rintro _ ⟨⟩
      · rintro _ ⟨⟩
    have hany : (deliver sampleEnv ({ store := {} } : World MemoryStateStore)
        { envelope := rootedSeed }).queue.any
        (fun e => e.event.causality =
          { rootEventId := some "elsewhere", parentEventId := some "run", depth := 1,
            chain := ["run"] }) = true := by
      decide
    obtain ⟨e, he, hcausality⟩ := List.any_eq_true.1 hany
    have hroot := (h sampleEnv htools rootedSeed hlinked e he).root "run"
    rw [of_decide_eq_true hcausality] at hroot
    exact absurd (hroot rfl (by decide)) (by decide)

end PrismAgent
