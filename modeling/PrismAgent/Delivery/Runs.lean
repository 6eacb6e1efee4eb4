import PrismAgent.Delivery.Dispatched

/-!
# Orchestrated runs under faults

The results about every run of handlings that starts with an empty store, in which messages
arrive in any order, are repeated, and are interrupted by faults anywhere.
-/

namespace PrismAgent

open Effect

/-- No message is routed to a workflow that makes a single plan for the run. -/
def Orchestrates (env : Env) (key : String × String) (handlings : List Handling) : Prop :=
  ∀ handling ∈ handlings, plansAlone env.registries key handling.message.envelope = false

instance (env : Env) (key : String × String) (handlings : List Handling) :
    Decidable (Orchestrates env key handlings) :=
  inferInstanceAs (Decidable (∀ handling ∈ handlings, _))

section Runs

variable {env : Env} {key : String × String} {w : World MemoryStateStore}

theorem handleAll_append (env : Env) (w : World MemoryStateStore) (before after : List Handling) :
    handleAll env w (before ++ after) = handleAll env (handleAll env w before) after :=
  List.foldl_append

theorem charted_empty : Charted { store := {} } := by
  constructor
  · rintro key g ⟨⟩
  · rintro key g ⟨⟩

theorem sound_empty (key : String × String) :
    (World.runView { store := {} } key).Sound := .inl ⟨rfl, rfl⟩

theorem handleAll_sound {handlings : List Handling} (h : Charted w)
    (hsound : (w.runView key).Sound) (hruns : Orchestrates env key handlings) :
    Charted (handleAll env w handlings) ∧ ((handleAll env w handlings).runView key).Sound := by
  induction handlings generalizing w with
  | nil => exact ⟨h, hsound⟩
  | cons handling handlings ih =>
      obtain ⟨hcharted, hstep⟩ := handling_step env h (hruns handling List.mem_cons_self)
      exact ih hcharted (hstep.sound hsound) fun h hmem => hruns h (List.mem_cons_of_mem _ hmem)

theorem sound_after {handlings : List Handling} (hruns : Orchestrates env key handlings) :
    Charted (handleAll env { store := {} } handlings) ∧
      ((handleAll env { store := {} } handlings).runView key).Sound :=
  handleAll_sound charted_empty (sound_empty key) hruns

theorem Orchestrates.left {before after : List Handling}
    (h : Orchestrates env key (before ++ after)) : Orchestrates env key before :=
  fun handling hmem => h handling (List.mem_append_left _ hmem)

theorem Orchestrates.right {before after : List Handling}
    (h : Orchestrates env key (before ++ after)) : Orchestrates env key after :=
  fun handling hmem => h handling (List.mem_append_right _ hmem)

theorem step_after {before : List Handling} {handling : Handling}
    (hruns : Orchestrates env key (before ++ [handling])) :
    RunStep ((handleAll env { store := {} } before).runView key)
      ((handleAll env { store := {} } (before ++ [handling])).runView key) := by
  rw [handleAll_append]
  exact (handling_step env (sound_after hruns.left).1
    (hruns.right handling (List.mem_singleton_self _))).2

variable (env)

/-- Every handling is a step of the run. -/
theorem handlings_refine_runs {handlings : List Handling}
    (hruns : Orchestrates env key handlings) {before after : List Handling} {handling : Handling}
    (hsplit : handlings = before ++ handling :: after) :
    RunStep ((handleAll env { store := {} } before).runView key)
      ((handleAll env { store := {} } (before ++ [handling])).runView key) := by
  subst hsplit
  rw [List.append_cons] at hruns
  exact step_after hruns.left

/-- The task events of a run are those of different nodes of its graph, none of them of a
PENDING node; without a graph there are none. -/
theorem dispatched_at_most_once {handlings : List Handling}
    (hruns : Orchestrates env key handlings) :
    ((handleAll env { store := {} } handlings).store.taskGraphs key = none →
        (handleAll env { store := {} } handlings).taskNodes key.1 key.2 = []) ∧
      ∀ g, (handleAll env { store := {} } handlings).store.taskGraphs key = some g →
        ((handleAll env { store := {} } handlings).taskNodes key.1 key.2).Subperm
            (g.allNodes.map (·.nodeId)) ∧
          ∀ n ∈ g.allNodes, n.status = .pending →
            n.nodeId ∉ (handleAll env { store := {} } handlings).taskNodes key.1 key.2 := by
  have hsound := (sound_after hruns).2
  exact ⟨fun hnone => hsound.eq_nil hnone, fun g hg => hsound.subperm hg⟩

/-- When a task event is enqueued, the prerequisites of its node are COMPLETED; those of the
synthesizer are all ordinary nodes. -/
theorem dispatched_when_startable {before : List Handling} {handling : Handling}
    (hruns : Orchestrates env key (before ++ [handling])) :
    ∃ done, (handleAll env { store := {} } (before ++ [handling])).taskNodes key.1 key.2 =
        (handleAll env { store := {} } before).taskNodes key.1 key.2 ++ done ∧
      ∀ i ∈ done, ∃ g,
        (handleAll env { store := {} } (before ++ [handling])).store.taskGraphs key = some g ∧
          g.Startable i :=
  (step_after hruns).dispatches_startable (sound_after hruns.left).2

theorem handleAll_moves {handlings : List Handling} {g : TaskGraph} (h : Charted w)
    (hsound : (w.runView key).Sound) (hruns : Orchestrates env key handlings)
    (hstored : w.store.taskGraphs key = some g) :
    ∃ g', (handleAll env w handlings).store.taskGraphs key = some g' ∧ g.MovesTo g' := by
  induction handlings generalizing w g with
  | nil =>
      obtain ⟨base, σ, rfl⟩ := h.uniform key g hstored
      exact ⟨_, hstored, TaskGraph.movesTo_withStatuses fun _ => le_rfl⟩
  | cons handling handlings ih =>
      obtain ⟨hcharted, hstep⟩ := handling_step env h (hruns handling List.mem_cons_self)
      obtain ⟨g', hg', hfirst⟩ := hstep.moves hsound hstored
      obtain ⟨g'', hg'', hrest⟩ := ih hcharted (hstep.sound hsound)
        (fun h hmem => hruns h (List.mem_cons_of_mem _ hmem)) hg'
      exact ⟨g'', hg'', hfirst.trans hrest⟩

/-- A stored graph stays for good and changes in nothing but statuses, which only move
forward. -/
theorem graphs_move_forward {before after : List Handling}
    (hruns : Orchestrates env key (before ++ after)) {g : TaskGraph}
    (hstored : (handleAll env { store := {} } before).store.taskGraphs key = some g) :
    ∃ g', (handleAll env { store := {} } (before ++ after)).store.taskGraphs key = some g' ∧
      g.MovesTo g' := by
  obtain ⟨hcharted, hsound⟩ := sound_after hruns.left
  rw [handleAll_append]
  exact handleAll_moves env hcharted hsound hruns.right hstored

/-- When no handling is aborted between a write of a graph and its events, and the node ids
are distinct, every RUNNING node has been dispatched exactly once. -/
theorem running_dispatched_exactly_once {handlings : List Handling}
    (hruns : Orchestrates env key handlings) (hunbroken : Unbroken env { store := {} } handlings)
    {g : TaskGraph}
    (hstored : (handleAll env { store := {} } handlings).store.taskGraphs key = some g)
    (hdistinct : (g.allNodes.map (·.nodeId)).Nodup) {n : SubTask} (hn : n ∈ g.allNodes)
    (hrunning : n.status = .running) :
    ((handleAll env { store := {} } handlings).taskNodes key.1 key.2).count n.nodeId = 1 := by
  have hmost := ((sound_after hruns).2.subperm hstored).1
  have hcaughtUp : CaughtUp (handleAll env { store := {} } handlings) :=
    caughtUp_of_not_due (handleAll_not_due charted_empty (by rintro d ⟨⟨g, hg, -⟩, -⟩; cases hg)
      hunbroken)
  have hmem := hcaughtUp.dispatched key.1 key.2 g hstored n hn hrunning
  refine Nat.le_antisymm ?_ (List.count_pos_iff.2 hmem)
  refine (List.subperm_iff_count.1 hmost n.nodeId).trans ?_
  exact List.nodup_iff_count_le_one.1 hdistinct n.nodeId

end Runs

section Samples

/-- The seed is aborted before it claims its node, and delivered again only after a completion
of the node has arrived. -/
def unclaimedHandlings : List Handling :=
  [abortedAt 9 { envelope := correlatedSeed }, { message := completionOf "node" "completed" },
    { message := { envelope := correlatedSeed } }]

theorem handlings_refine_runs_sample :
    RunStep ((handleAll orchestratedEnv { store := {} }
        [abortedAt 9 { envelope := correlatedSeed }]).runView ("ws", "run"))
      ((handleAll orchestratedEnv { store := {} }
        ([abortedAt 9 { envelope := correlatedSeed }] ++
          [{ message := completionOf "node" "completed" }])).runView ("ws", "run")) := by
  have hruns : Orchestrates orchestratedEnv ("ws", "run") unclaimedHandlings := by decide
  exact handlings_refine_runs orchestratedEnv hruns rfl

theorem dispatched_at_most_once_sample :
    ∃ g, (handleAll orchestratedEnv { store := {} } sampleHandlings).store.taskGraphs
        ("ws", "run") = some g ∧
      ((handleAll orchestratedEnv { store := {} } sampleHandlings).taskNodes "ws" "run").Subperm
        (g.allNodes.map (·.nodeId)) := by
  have hruns : Orchestrates orchestratedEnv ("ws", "run") sampleHandlings := by decide
  have hstored : ((handleAll orchestratedEnv { store := {} } sampleHandlings).store.taskGraphs
      ("ws", "run")).isSome = true := by decide
  obtain ⟨g, hg⟩ := Option.isSome_iff_exists.1 hstored
  exact ⟨g, hg, ((dispatched_at_most_once orchestratedEnv hruns).2 g hg).1⟩

theorem dispatched_when_startable_sample :
    ∃ done, (handleAll orchestratedEnv { store := {} }
        ([] ++ [abortedAt 12 { envelope := correlatedSeed }])).taskNodes "ws" "run" =
          (handleAll orchestratedEnv { store := {} } []).taskNodes "ws" "run" ++ done ∧
      ∀ i ∈ done, ∃ g, (handleAll orchestratedEnv { store := {} }
        ([] ++ [abortedAt 12 { envelope := correlatedSeed }])).store.taskGraphs ("ws", "run") =
          some g ∧ g.Startable i := by
  have hruns : Orchestrates orchestratedEnv ("ws", "run")
      ([] ++ [abortedAt 12 { envelope := correlatedSeed }]) := by decide
  exact dispatched_when_startable orchestratedEnv hruns

theorem graphs_move_forward_sample :
    ∃ g g', (handleAll orchestratedEnv { store := {} } (sampleHandlings.take 1)).store.taskGraphs
        ("ws", "run") = some g ∧
      (handleAll orchestratedEnv { store := {} }
        (sampleHandlings.take 1 ++ sampleHandlings.drop 1)).store.taskGraphs ("ws", "run") =
          some g' ∧ g.MovesTo g' := by
  have hruns : Orchestrates orchestratedEnv ("ws", "run")
      (sampleHandlings.take 1 ++ sampleHandlings.drop 1) := by decide
  have hstored : ((handleAll orchestratedEnv { store := {} }
      (sampleHandlings.take 1)).store.taskGraphs ("ws", "run")).isSome = true := by decide
  obtain ⟨g, hg⟩ := Option.isSome_iff_exists.1 hstored
  obtain ⟨g', hg'⟩ := graphs_move_forward orchestratedEnv hruns hg
  exact ⟨g, g', hg, hg'⟩

theorem running_dispatched_exactly_once_sample :
    ∃ nodeId, ((handleAll orchestratedEnv { store := {} } (sampleHandlings.take 2)).taskNodes
      "ws" "run").count nodeId = 1 := by
  have hruns : Orchestrates orchestratedEnv ("ws", "run") (sampleHandlings.take 2) := by decide
  have hunbroken : Unbroken orchestratedEnv { store := {} } (sampleHandlings.take 2) :=
    ⟨fun _ _ => by decide, fun _ _ => by decide, trivial⟩
  have hgraph : ((handleAll orchestratedEnv { store := {} }
      (sampleHandlings.take 2)).store.taskGraphs ("ws", "run")).map (fun g =>
        decide (g.allNodes.map (·.nodeId)).Nodup &&
          g.allNodes.any fun n => n.status = .running) = some true := by decide
  obtain ⟨g, hg, hfacts⟩ := Option.map_eq_some_iff.1 hgraph
  obtain ⟨hdistinct, hany⟩ := Bool.and_eq_true_iff.1 hfacts
  obtain ⟨n, hn, hrunning⟩ := List.any_eq_true.1 hany
  exact ⟨n.nodeId, running_dispatched_exactly_once orchestratedEnv hruns hunbroken hg
    (of_decide_eq_true hdistinct) hn (of_decide_eq_true hrunning)⟩

end Samples

end PrismAgent
