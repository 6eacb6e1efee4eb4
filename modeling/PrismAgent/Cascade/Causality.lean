import PrismAgent.Capabilities.DashboardTools
import PrismAgent.RunIdentity.Handlers

/-!
# The causality of events

Every event that a handler enqueues or chains is a child of the event at hand, apart from
asides: suggestions and insights, which are children of the plan's source event. `wake` is
the contract that says so, for any property of causality that children inherit.
-/

namespace PrismAgent

open Effect
open ActionEventHandler (Emits EmitsFor TerminalEvent)

/-- The chain has the length of the depth, begins with the root and ends with the parent. -/
structure EventCausality.Linked (causality : EventCausality) : Prop where
  depth : causality.depth = causality.chain.length
  root : ∀ first, causality.chain.head? = some first → first ≠ "" →
    causality.rootEventId = some first
  parent : ∀ last, causality.chain.getLast? = some last → causality.parentEventId = some last

/-- A causality without a chain names no root. -/
def EventCausality.Rooted (causality : EventCausality) : Prop :=
  causality.chain = [] → causality.rootEventId.getD "" = ""

/-- A child of a linked causality is linked. -/
theorem EventCausality.Linked.child {causality : EventCausality} (h : causality.Linked)
    (hrooted : causality.Rooted) (parentEventId : String) :
    (causality.child parentEventId).Linked ∧ (causality.child parentEventId).Rooted := by
  refine ⟨⟨?_, ?_, ?_⟩, ?_⟩
  · simp [EventCausality.child, h.depth]
  · intro first hfirst hne
    change (causality.chain ++ [parentEventId]).head? = some first at hfirst
    change some (orElseText causality.rootEventId parentEventId) = some first
    cases hchain : causality.chain with
    | nil =>
        rw [hchain] at hfirst
        obtain rfl := Option.some.inj hfirst
        have hnone := hrooted hchain
        cases hroot : causality.rootEventId with
        | none => rfl
        | some root =>
            rw [hroot] at hnone
            exact congrArg some (if_pos hnone)
    | cons head chain =>
        rw [hchain] at hfirst
        obtain rfl := Option.some.inj hfirst
        rw [h.root head (by rw [hchain]; rfl) hne]
        exact congrArg some (if_neg hne)
  · intro last hlast
    change (causality.chain ++ [parentEventId]).getLast? = some last at hlast
    rw [List.getLast?_concat] at hlast
    exact hlast
  · intro hempty
    exact absurd hempty (List.append_ne_nil_of_right_ne_nil _ (List.cons_ne_nil _ _))

/-- A suggestion or an insight. -/
def Aside (e : EventEnvelope) : Prop :=
  e.event.kind = .domain ∧ e.event.eventType ∈ ["agent_suggestion.created", "insight.created"]

theorem Aside.terminal {e : EventEnvelope} (h : Aside e) : TerminalEvent e := by
  refine ⟨h.1, ?_⟩
  have htypes : ∀ eventType ∈ ["agent_suggestion.created", "insight.created"],
      eventType ∈ TERMINAL_EVENT_TYPES := by decide
  exact htypes _ h.2

theorem aside_suggestion (eventId : String) (suggestion : AgentSuggestion)
    (context : AgentContext) :
    Aside (.wrap (Validator.suggestionEvent eventId suggestion context)) :=
  ⟨rfl, List.mem_cons_self⟩

theorem aside_insight (eventId : String) (action : PlannedAction) (context : AgentContext) :
    Aside (.wrap (CreateDashboardInsightTool.insightEvent eventId action context)) :=
  ⟨rfl, List.mem_cons_of_mem _ List.mem_cons_self⟩

section Wake

variable (K : EventCausality → Prop) (depth : ℕ)

/-- An event in the wake of one at `depth`: it lies deeper or is an aside. -/
def InWake (e : EventEnvelope) : Prop :=
  depth < e.event.causality.depth ∨ Aside e

/-- What is enqueued lies in the wake of an event at `depth` and has a causality in `K`, when
the sources that are read have; the tools emit insights only. -/
def wake : Contract Call Call.Answer Exc where
  calls
    | .saveContextSnapshot snapshot => K snapshot.context.sourceEvent.event.causality
    | .enqueue e => K e.event.causality ∧ InWake depth e
    | _ => True
  answers
    | .getContextSnapshot _ _, .ok (some snapshot) =>
        K snapshot.context.sourceEvent.event.causality
    | .executeOne _ action context, .ok result => ∀ e ∈ result.emittedEvents,
        ∃ eventId, e = .wrap (CreateDashboardInsightTool.insightEvent eventId action context)
    | _, _ => True

end Wake

section Spawns

variable {K : EventCausality → Prop} {depth : ℕ} {envelope : EventEnvelope}

/-- What follows an event for a plan is its child. -/
theorem EmitsFor.causality {plan : AgentPlan} {e : EventEnvelope}
    (h : EmitsFor envelope plan e) :
    e.event.causality = envelope.event.causality.child envelope.eventId := by
  cases h with
  | action => rfl
  | settle => rfl

theorem inWake_of_child {e : EventEnvelope} (hdepth : depth ≤ envelope.event.causality.depth)
    (he : e.event.causality = envelope.event.causality.child envelope.eventId) :
    InWake depth e := by
  refine Or.inl ?_
  rw [he]
  exact Nat.lt_succ_of_le hdepth

/-- The handlers keep to the wake of an event that lies deep enough. -/
theorem spawns_wake
    (hK : ∀ causality parentEventId, K causality → K (causality.child parentEventId))
    (hcausality : K envelope.event.causality) (hdepth : depth ≤ envelope.event.causality.depth) :
    Spawns (wake K depth) (fun e => K e.event.causality ∧ Aside e) (fun _ => True)
      (fun _ => True) (fun source => K source.event.causality) envelope := by
  have hchild : ∀ e : EventEnvelope,
      e.event.causality = envelope.event.causality.child envelope.eventId →
        (wake K depth).calls (.enqueue e) := by
    intro e he
    refine ⟨?_, inWake_of_child hdepth he⟩
    rw [he]
    exact hK _ _ hcausality
  constructor
  case quiet =>
    intro call hcall
    cases call with
    | saveContextSnapshot => cases hcall
    | enqueue => cases hcall
    | _ => trivial
  case follows => exact fun _ e _ he => hchild e (EmitsFor.causality he)
  case emits =>
    rintro d rfl - hsource e he
    cases he with
    | plan he => exact hchild e (EmitsFor.causality he)
    | replan => exact hchild _ rfl
    | aside he => exact ⟨he.1, Or.inr he.2⟩
  case task => exact fun _ _ _ _ _ _ => hchild _ rfl
  case completed => exact fun _ _ _ _ _ _ => hchild _ rfl
  case saveContextSnapshot => exact fun _ hsource => hsource
  case getContextSnapshot => exact fun _ _ _ h => h
  case executed =>
    intro plan action context result hsource hresult e he
    obtain ⟨eventId, rfl⟩ := hresult e he
    exact ⟨hK _ _ hsource, aside_insight eventId action context⟩
  case suggestion =>
    intro eventId suggestion context hsource
    exact ⟨hK _ _ hsource, aside_suggestion eventId suggestion context⟩
  all_goals exact fun _ => by intros; trivial

/-- Delivering an event keeps to its wake. -/
theorem RecursionRunner.dispatch_wake
    (hK : ∀ causality parentEventId, K causality → K (causality.child parentEventId))
    (registries : Registries) (message : Message)
    (hcausality : K message.envelope.event.causality) :
    (dispatch registries message).Respects
      (wake K message.envelope.event.causality.depth) fun _ => True := by
  obtain ⟨envelope, budget⟩ := message
  have hspawns := fun (e : EventEnvelope) (he : K e.event.causality ∧
    envelope.event.causality.depth ≤ e.event.causality.depth) => spawns_wake hK he.1 he.2
  have hown := hspawns envelope ⟨hcausality, le_rfl⟩
  unfold dispatch
  dsimp only
  split
  · refine Spawns.handle hspawns ?_ budget ⟨hcausality, le_rfl⟩
    intro e plan next he _ hnext
    rw [EmitsFor.causality hnext]
    exact ⟨hK _ _ he.1, le_trans he.2 (Nat.le_succ _)⟩
  · unfold SubAgentCoordinator.handle
    split
    · exact hown.handleTask registries trivial _
    · exact hown.handleCompleted _ _ _
    · trivial
  · unfold SubAgentCoordinator.handle
    split
    · exact hown.handleTask registries trivial _
    · exact hown.handleCompleted _ _ _
    · trivial
  · exact hown.handleDomain registries hcausality trivial

end Spawns

end PrismAgent
