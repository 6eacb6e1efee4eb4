import PrismAgent.Planning.Keys
import PrismAgent.RunIdentity.Runs
import PrismAgent.State.Refines

/-!
# Snapshots and the runs they are put under

A context snapshot is made once and put under the run it was made for, and a task graph refers
to a snapshot of its own run. The operations of the API-backed store keep that of the payloads
and of the fallback. A new store that reads the plan of a run therefore finds the snapshots that
were put under the id of the plan, and no others.
-/

namespace PrismAgent

open Joined
open Function (Injective)

/-- Normalization makes such keys. -/
def NormalKey (key : String) : Prop := ∃ base tool i, key = Planner.keyAt base tool i

def NormalKeys (plan : AgentPlan) : Prop :=
  ∀ action ∈ plan.actions, NormalKey action.idempotencyKey

theorem Planner.Keyed.normalKeys {base : String} {plan : AgentPlan} (h : Keyed base plan) :
    NormalKeys plan := by
  intro action haction
  obtain ⟨i, hi⟩ := List.mem_iff_getElem?.1 haction
  exact ⟨base, action.toolName, i, h i action hi⟩

theorem NormalKeys.replaceAction {plan : AgentPlan} {updated : PlannedAction}
    (h : NormalKeys plan) (hupdated : NormalKey updated.idempotencyKey) :
    NormalKeys (plan.replaceAction updated) := by
  intro action haction
  rcases AgentPlan.mem_replaceAction haction with rfl | ⟨hold, -⟩
  · exact hupdated
  · exact h action hold

/-- The last part of a key is a number. -/
theorem NormalKey.ne_append {key front word : String} {c : Char} (h : NormalKey key)
    (hcolon : ':' ∉ word.toList) (hmem : c ∈ word.toList) (hdigit : c.isDigit = false) :
    "idempotency" ++ ":" ++ key ≠ front ++ ":" ++ word := by
  obtain ⟨base, tool, i, rfl⟩ := h
  intro heq
  have hassoc : "idempotency" ++ ":" ++ Planner.keyAt base tool i =
      ("idempotency" ++ ":" ++ base ++ ":" ++ tool) ++ ":" ++ toString (i + 1) := by
    simp only [Planner.keyAt, String.append_assoc]
  rw [hassoc] at heq
  rw [← (colon_inj (colon_notMem_toString _) hcolon heq).2] at hmem
  rw [isDigit_of_mem_toString hmem] at hdigit
  cases hdigit

namespace PrismApiStateStore

variable {api : StateApi} {store store' : PrismApiStateStore} {memories : List StoredMemory}
  {fallback : MemoryStateStore} {made : String → Option ContextSnapshot}
  {workspaceId runId memoryId : String} {record : StateRecord}

/-- The graph refers to a snapshot of its own run, if to any. -/
def RefersToOwn (made : String → Option ContextSnapshot) (graph : TaskGraph) : Prop :=
  ∀ ref, graph.contextSnapshotRef = some ref → ∃ snapshot, made ref = some snapshot ∧
    snapshot.workspaceId = graph.workspaceId ∧ snapshot.planId = some graph.planId

/-- What a graph refers to depends on what it is filed under. -/
theorem RefersToOwn.congr {graph graph' : TaskGraph} (h : RefersToOwn made graph)
    (hsame : graph'.planId = graph.planId ∧ graph'.workspaceId = graph.workspaceId ∧
      graph'.contextSnapshotRef = graph.contextSnapshotRef) : RefersToOwn made graph' := by
  obtain ⟨hplan, hworkspace, href⟩ := hsame
  unfold RefersToOwn
  rw [hplan, hworkspace, href]
  exact h

/-- A snapshot is the one that was made under its id. -/
def Fits (made : String → Option ContextSnapshot) : StateRecord → Prop
  | .plan plan => NormalKeys plan
  | .contextSnapshot snapshot => made snapshot.snapshotId = some snapshot
  | .taskGraph graph => RefersToOwn made graph
  | .idempotencyKey key => NormalKey key
  | _ => True

/-- A snapshot has been put. -/
def SnapshotPut (memories : List StoredMemory) : StateRecord → Prop
  | .contextSnapshot snapshot => ∃ m ∈ memories, m.record = .contextSnapshot snapshot
  | _ => True

/-- Plans, graphs and snapshots stand under their own ids, and the snapshots have been put. -/
structure UnderOwnIds (made : String → Option ContextSnapshot) (memories : List StoredMemory)
    (fallback : MemoryStateStore) : Prop where
  plans : ∀ key plan, fallback.plans key = some plan →
    key = (plan.workspaceId, plan.planId) ∧ NormalKeys plan
  taskGraphs : ∀ key graph, fallback.taskGraphs key = some graph →
    key = (graph.workspaceId, graph.planId) ∧ RefersToOwn made graph
  contextSnapshots : ∀ key snapshot, fallback.contextSnapshots key = some snapshot →
    key = (snapshot.workspaceId, snapshot.snapshotId) ∧
      SnapshotPut memories (.contextSnapshot snapshot)

/-- So do the payloads, each with a record that fits. -/
structure InPlace (api : StateApi) (made : String → Option ContextSnapshot)
    (store : PrismApiStateStore) : Prop where
  persists : store.persistAgentMemories = true
  filed : ∀ m ∈ store.memories, Filed api m
  fits : ∀ m ∈ store.memories, Fits made m.record
  fallback : UnderOwnIds made store.memories store.fallbackStore

section Fallback

theorem snapshotPut_of_mem {m : StoredMemory} (hm : m ∈ memories) :
    SnapshotPut memories m.record := by
  cases hrecord : m.record with
  | contextSnapshot snapshot => exact ⟨m, hm, hrecord⟩
  | _ => trivial

theorem UnderOwnIds.mono (h : UnderOwnIds made memories fallback)
    {memories' : List StoredMemory} (hmemories : ∀ m ∈ memories, m ∈ memories') :
    UnderOwnIds made memories' fallback := by
  refine ⟨h.plans, h.taskGraphs, fun key snapshot hsnapshot => ?_⟩
  obtain ⟨hkey, m, hm, hrecord⟩ := h.contextSnapshots key snapshot hsnapshot
  exact ⟨hkey, m, hmemories m hm, hrecord⟩

/-- A record that fits may be written; a snapshot must have been put. -/
theorem UnderOwnIds.write (h : UnderOwnIds made memories fallback)
    (workspaceId runId : String) (record : StateRecord) (hfits : Fits made record)
    (hput : SnapshotPut memories record) :
    UnderOwnIds made memories (writeRecord workspaceId runId fallback record) := by
  cases record with
  | plan plan =>
      exact ⟨forall_update h.plans ⟨rfl, hfits⟩, h.taskGraphs, h.contextSnapshots⟩
  | taskGraph graph =>
      exact ⟨h.plans, forall_update h.taskGraphs ⟨rfl, hfits⟩, h.contextSnapshots⟩
  | contextSnapshot snapshot =>
      exact ⟨h.plans, h.taskGraphs, forall_update h.contextSnapshots ⟨rfl, hput⟩⟩
  | _ => exact ⟨h.plans, h.taskGraphs, h.contextSnapshots⟩

/-- Records that have been put are replayed. -/
theorem UnderOwnIds.foldl_loadRecord (h : UnderOwnIds made memories store.fallbackStore)
    {records : List StateRecord}
    (hrecords : ∀ record ∈ records, Fits made record ∧ ∃ m ∈ memories, m.record = record) :
    UnderOwnIds made memories
      (records.foldl (loadRecord workspaceId runId) store).fallbackStore := by
  induction records generalizing store with
  | nil => exact h
  | cons record records ih =>
      obtain ⟨hfits, m, hm, hrecord⟩ := hrecords record List.mem_cons_self
      have hwritten : UnderOwnIds made memories
          (writeRecord workspaceId runId store.fallbackStore record) :=
        h.write workspaceId runId record hfits (hrecord ▸ snapshotPut_of_mem hm)
      refine ih ?_ fun record' hrecord' => hrecords record' (List.mem_cons_of_mem _ hrecord')
      cases record with
      | idempotencyKey key =>
          by_cases hkey : key = ""
          · rw [loadRecord, if_pos hkey]
            exact h
          · rw [loadRecord, if_neg hkey]
            exact hwritten
      | _ => exact hwritten

end Fallback

namespace InPlace

/-- Nothing is put, and the fallback stays in place. -/
theorem keep (h : InPlace api made store)
    (hpersists : store'.persistAgentMemories = store.persistAgentMemories)
    (hmemories : store'.memories = store.memories)
    (hfallback : UnderOwnIds made store.memories store'.fallbackStore) :
    InPlace api made store' where
  persists := hpersists.trans h.persists
  filed := by rw [hmemories]; exact h.filed
  fits := by rw [hmemories]; exact h.fits
  fallback := by rw [hmemories]; exact hfallback

/-- A record that fits is put. -/
theorem persist (h : InPlace api made store)
    (hfiled : Filed api ⟨workspaceId, runId, memoryId, record⟩) (hfits : Fits made record) :
    InPlace api made (store.persistStateMemory workspaceId memoryId runId record) := by
  rw [persistStateMemory_eq h.persists]
  exact ⟨h.persists, List.forall_mem_append.2 ⟨h.filed, List.forall_mem_singleton.2 hfiled⟩,
    List.forall_mem_append.2 ⟨h.fits, List.forall_mem_singleton.2 hfits⟩,
    h.fallback.mono fun m hm => List.mem_append_left _ hm⟩

section Writes

theorem savePlan (h : InPlace api made store) {plan : AgentPlan} (hplan : NormalKeys plan) :
    InPlace api made (store.savePlan api plan) := by
  have hsaved : InPlace api made
      ((store.withFallback (store.fallbackStore.savePlan plan)).rememberPlanIdempotency plan) :=
    h.keep rfl rfl (h.fallback.write "" "" (.plan plan) hplan trivial)
  unfold PrismApiStateStore.savePlan persistPlan
  generalize hid : stateMemoryId api [plan.planId, "plan"] = memoryId
  refine hsaved.persist ?_ hplan
  unfold Filed WellFiled
  exact ⟨⟨rfl, rfl, hid.symm⟩, trivial⟩

theorem saveTaskGraph (h : InPlace api made store) {graph : TaskGraph}
    (hgraph : RefersToOwn made graph) : InPlace api made (store.saveTaskGraph api graph) := by
  have hsaved : InPlace api made (store.withFallback (store.fallbackStore.saveTaskGraph graph)) :=
    h.keep rfl rfl (h.fallback.write "" "" (.taskGraph graph) hgraph trivial)
  unfold PrismApiStateStore.saveTaskGraph persistTaskGraph
  generalize hid : stateMemoryId api [graph.planId, "task_graph"] = memoryId
  refine hsaved.persist ?_ hgraph
  unfold Filed WellFiled
  exact ⟨hid.symm, rfl, rfl⟩

theorem saveSubAgentResult (h : InPlace api made store) (workspaceId runId : String)
    (result : SubAgentResult) :
    InPlace api made (store.saveSubAgentResult api workspaceId runId result) := by
  have hsaved : InPlace api made (store.withFallback
      (store.fallbackStore.saveSubAgentResult workspaceId runId result)) :=
    h.keep rfl rfl ⟨h.fallback.plans, h.fallback.taskGraphs, h.fallback.contextSnapshots⟩
  unfold PrismApiStateStore.saveSubAgentResult persistSubAgentResult
  generalize hid : stateMemoryId api [runId, result.nodeId, "sub_agent_result"] = memoryId
  refine hsaved.persist ?_ trivial
  unfold Filed WellFiled
  exact ⟨hid.symm, rfl⟩

theorem saveActionResult (h : InPlace api made store) (result : ToolResult) :
    InPlace api made (store.saveActionResult api result) := by
  have hsaved : InPlace api made (store.withFallback
      (store.fallbackStore.saveActionResult result)) :=
    h.keep rfl rfl (h.fallback.write "" "" (.actionResult result) trivial trivial)
  unfold PrismApiStateStore.saveActionResult persistActionResult
  split
  next => exact hsaved
  next plan _ =>
    generalize hid : stateMemoryId api [result.planId, result.actionId, "result"] = memoryId
    refine hsaved.persist ?_ trivial
    unfold Filed WellFiled
    exact ⟨hid.symm, rfl⟩

theorem recordIdempotencyKey (h : InPlace api made store) {key : String} (hkey : NormalKey key) :
    InPlace api made (store.recordIdempotencyKey api key) := by
  have hsaved : InPlace api made (store.withFallback
      (store.fallbackStore.recordIdempotencyKey key)) :=
    h.keep rfl rfl (h.fallback.write "" "" (.idempotencyKey key) hkey trivial)
  unfold PrismApiStateStore.recordIdempotencyKey
  dsimp only
  split
  next => exact hsaved
  next workspaceId runId _ =>
    split
    next => exact hsaved
    next candidate _ =>
      unfold persistIdempotencyKey
      generalize hid : stateMemoryId api ["idempotency", key] = memoryId
      refine hsaved.persist ?_ hkey
      unfold Filed WellFiled
      exact ⟨hid.symm, trivial⟩

/-- A snapshot of a run is put, and then it may be written. -/
theorem saveContextSnapshot (h : InPlace api made store) {snapshot : ContextSnapshot}
    (hsnapshot : made snapshot.snapshotId = some snapshot)
    (hrun : snapshot.planId = some runId) :
    InPlace api made (store.saveContextSnapshot api snapshot) := by
  unfold PrismApiStateStore.saveContextSnapshot persistContextSnapshot
  rw [hrun]
  dsimp only
  generalize hid : stateMemoryId api [runId, snapshot.snapshotId, "context"] = memoryId
  have hput : InPlace api made (store.persistStateMemory snapshot.workspaceId memoryId runId
      (.contextSnapshot snapshot)) := by
    refine h.persist ?_ hsnapshot
    unfold Filed WellFiled
    exact ⟨⟨rfl, hrun, hid.symm⟩, trivial⟩
  rw [persistStateMemory_eq h.persists] at hput
  rw [persistStateMemory_eq]
  swap
  · exact h.persists
  exact hput.keep rfl rfl (hput.fallback.write "" "" (.contextSnapshot snapshot) hsnapshot
    ⟨_, List.mem_append_right _ List.mem_cons_self, rfl⟩)

end Writes

section Reads

variable (hfaithful : Faithful api)

include hfaithful

theorem restoreRunState (h : InPlace api made store) (workspaceId runId : String) :
    InPlace api made (store.restoreRunState api workspaceId runId) := by
  obtain ⟨hmemories, hpersists⟩ := @restoreRunState_memories api store workspaceId runId
  refine h.keep hpersists hmemories (h.fallback.foldl_loadRecord fun record hrecord => ?_)
  obtain ⟨memoryId, hlatest⟩ := (hfaithful.memories _ _ _ _).1 hrecord
  obtain ⟨m, hm, -, -, -, rfl⟩ := exists_of_latest hlatest
  exact ⟨h.fits m hm, m, hm, rfl⟩

/-- A plan that is read has the id it is asked for. -/
theorem getPlan (h : InPlace api made store) (workspaceId planId : String) :
    InPlace api made (store.getPlan api workspaceId planId).2 ∧
      ∀ plan, (store.getPlan api workspaceId planId).1 = some plan →
        plan.planId = planId ∧ NormalKeys plan := by
  have hrestored := h.restoreRunState hfaithful workspaceId planId
  have hread : ∀ plan, (store.getPlan api workspaceId planId).1 = some plan →
      (workspaceId, planId) = (plan.workspaceId, plan.planId) ∧ NormalKeys plan := by
    intro plan hplan
    rw [hfaithful.getPlan_answer] at hplan
    exact hrestored.fallback.plans _ plan hplan
  refine ⟨?_, fun plan hplan => ⟨(Prod.mk.inj (hread plan hplan).1).2.symm, (hread plan hplan).2⟩⟩
  have hrest := hrestored.fallback
  unfold PrismApiStateStore.getPlan at hread ⊢
  dsimp only at hread ⊢
  split at hread
  next => exact hrestored
  next plan hplan =>
    refine hrestored.keep rfl rfl ?_
    exact hrest.write "" "" (.plan _) (hread _ rfl).2 trivial

theorem getTaskGraph (h : InPlace api made store) (workspaceId runId : String) :
    InPlace api made (store.getTaskGraph api workspaceId runId).2 ∧
      ∀ graph, (store.getTaskGraph api workspaceId runId).1 = some graph →
        (workspaceId, runId) = (graph.workspaceId, graph.planId) ∧ RefersToOwn made graph :=
  ⟨h.restoreRunState hfaithful workspaceId runId, fun graph hgraph =>
    (h.restoreRunState hfaithful workspaceId runId).fallback.taskGraphs _ graph hgraph⟩

theorem checkIdempotencyKey (h : InPlace api made store) (key : String) :
    InPlace api made (store.checkIdempotencyKey api key).2 := by
  unfold PrismApiStateStore.checkIdempotencyKey
  split
  · exact h
  · split
    next => exact h
    next workspaceId runId _ =>
      unfold checkIdempotencyKey.checkWorkspaceIdempotencyKey
      split
      next => exact h
      next candidate _ => exact h.restoreRunState hfaithful workspaceId candidate

theorem claimReadyNodes (h : InPlace api made store) (workspaceId runId : String) :
    InPlace api made (store.claimReadyNodes api workspaceId runId).2 := by
  obtain ⟨hrestored, hgraph⟩ := h.getTaskGraph hfaithful workspaceId runId
  unfold PrismApiStateStore.claimReadyNodes
  generalize hread : store.getTaskGraph api workspaceId runId = read at *
  obtain ⟨_ | graph, restored⟩ := read
  · exact hrestored
  · dsimp only
    split
    · refine hrestored.saveTaskGraph ?_
      exact ((hgraph graph rfl).2).congr graph.claimReady_filing
    · exact hrestored

theorem advanceTaskGraph (h : InPlace api made store) (workspaceId runId nodeId : String)
    (status : SubTaskStatus) :
    InPlace api made (store.advanceTaskGraph api workspaceId runId nodeId status).2 := by
  obtain ⟨hrestored, hgraph⟩ := h.getTaskGraph hfaithful workspaceId runId
  unfold PrismApiStateStore.advanceTaskGraph
  generalize hread : store.getTaskGraph api workspaceId runId = read at *
  obtain ⟨_ | graph, restored⟩ := read
  · exact hrestored
  · dsimp only
    split
    · exact hrestored
    · refine hrestored.saveTaskGraph ?_
      exact ((hgraph graph rfl).2).congr (graph.planAdvance_filing nodeId status)

end Reads

end InPlace

section Fresh

/-- The entry of a record in the table of the snapshots. -/
def snapshotEntry : StateRecord → Option ((String × String) × ContextSnapshot)
  | .contextSnapshot snapshot => some ((snapshot.workspaceId, snapshot.snapshotId), snapshot)
  | _ => none

theorem snapshotEntry_eq_some {key : String × String} {snapshot : ContextSnapshot} :
    snapshotEntry record = some (key, snapshot) ↔
      record = .contextSnapshot snapshot ∧ (snapshot.workspaceId, snapshot.snapshotId) = key := by
  constructor
  · intro h
    cases record with
    | contextSnapshot other =>
        obtain ⟨hkey, rfl⟩ := Prod.mk.inj (Option.some.inj h)
        exact ⟨rfl, hkey⟩
    | _ => cases h
  · rintro ⟨rfl, rfl⟩
    rfl

theorem enters_snapshots : Replay.Enters (loadRecord workspaceId runId)
    (fun store => store.fallbackStore.contextSnapshots) snapshotEntry := by
  constructor
  · intro store record k v h
    cases record with
    | contextSnapshot snapshot =>
        cases h
        exact Function.update_self ..
    | _ => cases h
  · intro store record k h
    cases record with
    | contextSnapshot snapshot =>
        exact Function.update_of_ne (fun hk => h snapshot (by rw [hk]; rfl)) _ _
    | idempotencyKey key => by_cases hkey : key = "" <;> simp [loadRecord, hkey, withFallback,
        MemoryStateStore.recordIdempotencyKey]
    | _ => rfl

/-- What was put at a place has a latest record there. -/
theorem exists_latest_of_mem {m : StoredMemory} (hm : m ∈ memories) :
    ∃ record, latest memories m.workspaceId m.runId m.memoryId = some record := by
  refine Option.isSome_iff_exists.1 ?_
  unfold latest
  rw [Option.isSome_map, List.getLast?_isSome]
  exact List.ne_nil_of_mem (List.mem_filter.2 ⟨hm, decide_eq_true ⟨rfl, rfl, rfl⟩⟩)

variable {snapshot : ContextSnapshot}

/-- A run has no other snapshot of the same memory id. -/
theorem contextId_inj (huuid5 : Injective api.uuid5) {id id' : String}
    (h : contextId api runId id = contextId api runId id') : id = id' := by
  by_contra hne
  refine RecordName.memoryId_ne huuid5 (x := .contextSnapshot runId id)
    (y := .contextSnapshot runId id') (by simpa using hne) ?_ h
  have hlonger : ∀ {s t : String}, ¬ Overlaps runId s runId t := by
    rintro s t ⟨u, hu, -⟩
    have hlength := congrArg String.length hu
    have hcolon : ":".length = 1 := rfl
    simp only [String.length_append, hcolon] at hlength
    omega
  rintro (hover | hover)
  · exact hlonger hover
  · exact hlonger hover

/-- Nothing is put over a snapshot. -/
theorem InPlace.latest_snapshot (huuid5 : Injective api.uuid5) (h : InPlace api made store)
    {m : StoredMemory} (hm : m ∈ store.memories) (hrecord : m.record = .contextSnapshot snapshot) :
    latest store.memories m.workspaceId m.runId m.memoryId = some (.contextSnapshot snapshot) := by
  obtain ⟨record, hlatest⟩ := exists_latest_of_mem hm
  obtain ⟨m', hm', -, hrun, hid, rfl⟩ := exists_of_latest hlatest
  rw [hlatest]
  have hfits := h.fits m hm
  have hfiled := (h.filed m hm).1
  have hfits' := h.fits m' hm'
  have hfiled' := (h.filed m' hm').1
  unfold WellFiled at hfiled hfiled'
  rw [hrecord] at hfits hfiled
  rw [hfiled.2.2] at hid
  have hother : ∀ name : RecordName, m'.memoryId = name.memoryId api →
      name ≠ .contextSnapshot m.runId snapshot.snapshotId →
        name.Clashes (.contextSnapshot m.runId snapshot.snapshotId) := by
    intro name hname hne
    by_contra hclash
    exact RecordName.memoryId_ne huuid5 hne hclash (hname.symm.trans hid)
  cases hrecord' : m'.record with
  | contextSnapshot other =>
      rw [hrecord'] at hfits' hfiled'
      rw [hfiled'.2.2, hrun] at hid
      have hmade : made other.snapshotId = some other := hfits'
      rw [contextId_inj huuid5 hid] at hmade
      rw [Option.some.inj (hmade.symm.trans hfits)]
  | idempotencyKey key =>
      rw [hrecord'] at hfits' hfiled'
      have hkey : NormalKey key := hfits'
      have hjoined : "idempotency" ++ ":" ++ key =
          m.runId ++ ":" ++ snapshot.snapshotId ++ ":" ++ "context" :=
        ((RecordName.memoryId_eq_iff huuid5 (x := .idempotencyKey key)
          (y := .contextSnapshot m.runId snapshot.snapshotId)).1 (hfiled'.symm.trans hid)).trans
            (RecordName.joined_eq_initLast _)
      exact absurd hjoined (hkey.ne_append (c := 'c') (by decide) (by decide) (by decide))
  | plan plan =>
      rw [hrecord'] at hfiled'
      exact (hother (.plan plan.planId) hfiled'.2.2 (by simp)).elim
  | taskGraph graph =>
      rw [hrecord'] at hfiled'
      exact (hother (.taskGraph graph.planId) hfiled' (by simp)).elim
  | actionResult result =>
      rw [hrecord'] at hfiled'
      exact (hother (.actionResult result.planId result.actionId) hfiled' (by simp)).elim
  | subAgentResult resultRunId result =>
      rw [hrecord'] at hfiled'
      exact (hother (.subAgentResult resultRunId result.nodeId) hfiled' (by simp)).elim

/-- A snapshot is put under its workspace and the run it names. -/
theorem InPlace.snapshot_place (h : InPlace api made store) {m : StoredMemory}
    (hm : m ∈ store.memories) (hrecord : m.record = .contextSnapshot snapshot) :
    m.workspaceId = snapshot.workspaceId ∧ snapshot.planId = some m.runId := by
  have hfiled := (h.filed m hm).1
  unfold WellFiled at hfiled
  rw [hrecord] at hfiled
  exact ⟨hfiled.1, hfiled.2.1⟩

theorem InPlace.made_of_mem (h : InPlace api made store) {m : StoredMemory}
    (hm : m ∈ store.memories) (hrecord : m.record = .contextSnapshot snapshot) :
    made snapshot.snapshotId = some snapshot := by
  have hfits := h.fits m hm
  rw [hrecord] at hfits
  exact hfits

/-- A new store that reads the plan of an id finds a snapshot if and only if the snapshot was
put under that id. -/
theorem InPlace.fresh_snapshot_iff (huuid5 : Injective api.uuid5) (hfaithful : Faithful api)
    (h : InPlace api made store) {planId ref : String} :
    (store.fresh.getPlan api workspaceId planId).2.getContextSnapshot workspaceId ref =
        some snapshot ↔
      SnapshotPut store.memories (.contextSnapshot snapshot) ∧
        (snapshot.workspaceId, snapshot.snapshotId) = (workspaceId, ref) ∧
          snapshot.planId = some planId := by
  have hread : (store.fresh.getPlan api workspaceId planId).2.getContextSnapshot workspaceId ref =
      (store.fresh.restoreRunState api workspaceId planId).fallbackStore.contextSnapshots
        (workspaceId, ref) := congrFun getPlan_restores.1 _
  rw [hread]
  constructor
  · intro hfound
    rcases enters_snapshots.mem_of_foldl hfound with hnone | ⟨record, hrecord, hentry⟩
    · cases hnone
    · obtain ⟨hput, hkey⟩ := snapshotEntry_eq_some.1 hentry
      obtain ⟨memoryId, hlatest⟩ := (hfaithful.memories _ _ _ _).1 hrecord
      obtain ⟨m, hm, -, hrun, -, hmrecord⟩ := exists_of_latest hlatest
      have hplace := h.snapshot_place hm (hmrecord.trans hput)
      exact ⟨⟨m, hm, hmrecord.trans hput⟩, hkey, hrun ▸ hplace.2⟩
  · rintro ⟨⟨m, hm, hput⟩, hkey, hplan⟩
    obtain ⟨rfl, rfl⟩ := Prod.mk.inj hkey
    obtain ⟨hws, hrun⟩ := h.snapshot_place hm hput
    have hlatest := h.latest_snapshot huuid5 hm hput
    rw [hws, ← Option.some.inj (hplan.symm.trans hrun)] at hlatest
    have hmem : .contextSnapshot snapshot ∈
        (store.fresh.runState api snapshot.workspaceId planId).memories :=
      (hfaithful.memories _ _ _ _).2 ⟨_, hlatest⟩
    refine enters_snapshots.foldl_eq (fun record hrecord other hentry => ?_)
      (.inr ⟨_, hmem, rfl⟩)
    -- another snapshot with the id was made as this one
    obtain ⟨hput', hkey'⟩ := snapshotEntry_eq_some.1 hentry
    obtain ⟨memoryId, hother⟩ := (hfaithful.memories _ _ _ _).1 hrecord
    obtain ⟨m', hm', -, -, -, hmrecord⟩ := exists_of_latest hother
    have hmade := h.made_of_mem hm' (hmrecord.trans hput')
    rw [(Prod.mk.inj hkey').2] at hmade
    exact Option.some.inj (hmade.symm.trans (h.made_of_mem hm hput))

/-- A new store reads the plan that was put last under an id. -/
theorem InPlace.fresh_plan (hfaithful : Faithful api) (h : InPlace api made store)
    {plan : AgentPlan}
    (hlatest : latest store.memories plan.workspaceId plan.planId
      (stateMemoryId api [plan.planId, "plan"]) = some (.plan plan)) :
    (store.fresh.getPlan api plan.workspaceId plan.planId).1 = some plan := by
  rw [hfaithful.getPlan_answer]
  have hmem : .plan plan ∈ (store.fresh.runState api plan.workspaceId plan.planId).memories :=
    (hfaithful.memories _ _ _ _).2 ⟨_, hlatest⟩
  refine enters_plans.foldl_eq (fun record hrecord other hentry => ?_) (.inr ⟨_, hmem, rfl⟩)
  obtain ⟨memoryId, hother⟩ := (hfaithful.memories _ _ _ _).1 hrecord
  cases record with
  | plan found =>
      obtain ⟨hkey, rfl⟩ := Prod.mk.inj (Option.some.inj hentry)
      obtain ⟨hws, hid⟩ := Prod.mk.inj hkey
      obtain ⟨m, hm, hmws, hmrun, hmid, hput⟩ := exists_of_latest hother
      have hfiled := (h.filed m hm).1
      unfold WellFiled at hfiled
      rw [hput] at hfiled
      have hmemory : memoryId = stateMemoryId api [plan.planId, "plan"] := by
        rw [← hid, ← hmid]
        exact hfiled.2.2
      rw [hmemory] at hother
      exact StateRecord.plan.inj (Option.some.inj (hother.symm.trans hlatest))
  | _ => cases hentry

end Fresh

end PrismApiStateStore

end PrismAgent
