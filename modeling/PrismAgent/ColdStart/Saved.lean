import PrismAgent.ColdStart.Snapshots

/-!
# What has been put

The operations of the API-backed store put payloads behind the earlier ones. Nothing but a plan
is put where a plan stands, so what stands there is the plan that was saved last, and a new store
reads it.
-/

namespace PrismAgent

open Function (Injective)

/-- The plans among the payloads, in the order in which they were put. -/
def plansPut (memories : List StoredMemory) : List AgentPlan :=
  memories.filterMap fun m => (PrismApiStateStore.planEntry m.record).map Prod.snd

/-- The plan is the last one of the list under its key. -/
def SavedLast (plans : List AgentPlan) (plan : AgentPlan) : Prop :=
  (plans.filter fun p => p.key = plan.key).getLast? = some plan

theorem savedLast_concat (plans : List AgentPlan) (plan : AgentPlan) :
    SavedLast (plans ++ [plan]) plan := by
  unfold SavedLast
  simp [List.filter_append]

namespace PrismApiStateStore

variable {api : StateApi} {store store' store'' : PrismApiStateStore} {plans : List AgentPlan}
  {made : String → Option ContextSnapshot} {workspaceId runId memoryId : String}
  {record : StateRecord}

/-- The payloads of `store` are followed by others, and `plans` are the plans among these. -/
def Puts (plans : List AgentPlan) (store store' : PrismApiStateStore) : Prop :=
  ∃ more, store'.memories = store.memories ++ more ∧ plansPut more = plans

namespace Puts

theorem of_eq (h : store'.memories = store.memories) : Puts [] store store' :=
  ⟨[], by rw [h, List.append_nil], rfl⟩

theorem trans {plans' : List AgentPlan} (h : Puts plans store store')
    (h' : Puts plans' store' store'') : Puts (plans ++ plans') store store'' := by
  obtain ⟨more, hmore, rfl⟩ := h
  obtain ⟨more', hmore', rfl⟩ := h'
  exact ⟨more ++ more', by rw [hmore', hmore, List.append_assoc], List.filterMap_append⟩

theorem memories (h : Puts plans store store') {m : StoredMemory} (hm : m ∈ store.memories) :
    m ∈ store'.memories := by
  obtain ⟨more, hmore, -⟩ := h
  rw [hmore]
  exact List.mem_append_left _ hm

theorem plansPut_eq (h : Puts plans store store') :
    plansPut store'.memories = plansPut store.memories ++ plans := by
  obtain ⟨more, hmore, rfl⟩ := h
  rw [hmore]
  exact List.filterMap_append

end Puts

/-- A record that is no plan is put, or nothing. -/
theorem puts_persist (store : PrismApiStateStore) (workspaceId memoryId runId : String)
    (hplan : planEntry record = none) :
    Puts [] store (store.persistStateMemory workspaceId memoryId runId record) := by
  unfold persistStateMemory
  split
  · exact ⟨_, rfl, by simp [plansPut, hplan]⟩
  · exact .of_eq rfl

section Writes

theorem puts_savePlan (h : store.persistAgentMemories = true) (plan : AgentPlan) :
    Puts [plan] store (store.savePlan api plan) := by
  unfold PrismApiStateStore.savePlan persistPlan
  rw [persistStateMemory_eq]
  swap
  · exact h
  exact ⟨_, rfl, rfl⟩

theorem puts_saveTaskGraph (graph : TaskGraph) : Puts [] store (store.saveTaskGraph api graph) :=
  puts_persist (store.withFallback _) _ _ _ rfl

theorem puts_saveSubAgentResult (workspaceId runId : String) (result : SubAgentResult) :
    Puts [] store (store.saveSubAgentResult api workspaceId runId result) :=
  puts_persist (store.withFallback _) _ _ _ rfl

theorem puts_saveActionResult (result : ToolResult) :
    Puts [] store (store.saveActionResult api result) := by
  unfold PrismApiStateStore.saveActionResult persistActionResult
  split
  · exact .of_eq rfl
  · exact puts_persist (store.withFallback _) _ _ _ rfl

theorem puts_recordIdempotencyKey (key : String) :
    Puts [] store (store.recordIdempotencyKey api key) := by
  unfold PrismApiStateStore.recordIdempotencyKey
  dsimp only
  split
  · exact .of_eq rfl
  · split
    · exact .of_eq rfl
    · exact puts_persist (store.withFallback _) _ _ _ rfl

theorem puts_saveContextSnapshot (snapshot : ContextSnapshot) :
    Puts [] store (store.saveContextSnapshot api snapshot) := by
  unfold PrismApiStateStore.saveContextSnapshot persistContextSnapshot
  split
  · exact .of_eq rfl
  · exact puts_persist (store.withFallback _) _ _ _ rfl

end Writes

section Reads

theorem puts_restoreRunState (workspaceId runId : String) :
    Puts [] store (store.restoreRunState api workspaceId runId) :=
  .of_eq restoreRunState_memories.1

theorem puts_getPlan (workspaceId planId : String) :
    Puts [] store (store.getPlan api workspaceId planId).2 :=
  .of_eq getPlan_restores.2.1

theorem puts_checkIdempotencyKey (key : String) :
    Puts [] store (store.checkIdempotencyKey api key).2 := by
  unfold PrismApiStateStore.checkIdempotencyKey
  split
  · exact .of_eq rfl
  · split
    · exact .of_eq rfl
    · unfold checkIdempotencyKey.checkWorkspaceIdempotencyKey
      split
      · exact .of_eq rfl
      · exact puts_restoreRunState _ _

theorem puts_claimReadyNodes (workspaceId runId : String) :
    Puts [] store (store.claimReadyNodes api workspaceId runId).2 := by
  have hrestored : Puts [] store (store.getTaskGraph api workspaceId runId).2 :=
    puts_restoreRunState _ _
  unfold PrismApiStateStore.claimReadyNodes
  generalize store.getTaskGraph api workspaceId runId = read at *
  obtain ⟨_ | graph, restored⟩ := read
  · exact hrestored
  · dsimp only
    split
    · exact hrestored.trans (puts_saveTaskGraph _)
    · exact hrestored

theorem puts_advanceTaskGraph (workspaceId runId nodeId : String) (status : SubTaskStatus) :
    Puts [] store (store.advanceTaskGraph api workspaceId runId nodeId status).2 := by
  have hrestored : Puts [] store (store.getTaskGraph api workspaceId runId).2 :=
    puts_restoreRunState _ _
  unfold PrismApiStateStore.advanceTaskGraph
  generalize store.getTaskGraph api workspaceId runId = read at *
  obtain ⟨_ | graph, restored⟩ := read
  · exact hrestored
  · dsimp only
    split
    · exact hrestored
    · exact hrestored.trans (puts_saveTaskGraph _)

end Reads

section Last

/-- The place of a plan is that of no other record. -/
theorem ne_plan_place (huuid5 : Injective api.uuid5) {m : StoredMemory} (hfiled : Filed api m)
    (hfits : Fits made m.record) (hplan : planEntry m.record = none) (planId : String) :
    m.memoryId ≠ (RecordName.plan planId).memoryId api := by
  have hother : ∀ name : RecordName, m.memoryId = name.memoryId api →
      name ≠ .plan planId → ¬ name.Clashes (.plan planId) →
        m.memoryId ≠ (RecordName.plan planId).memoryId api := by
    intro name hname hne hclash
    rw [hname]
    exact RecordName.memoryId_ne huuid5 hne hclash
  have hwell := hfiled.1
  unfold WellFiled at hwell
  cases hrecord : m.record with
  | plan plan =>
      rw [hrecord] at hplan
      cases hplan
  | idempotencyKey key =>
      rw [hrecord] at hwell hfits
      have hkey : NormalKey key := hfits
      intro hid
      have hjoined : "idempotency" ++ ":" ++ key = planId ++ ":" ++ "plan" :=
        (RecordName.memoryId_eq_iff huuid5 (x := .idempotencyKey key) (y := .plan planId)).1
          (hwell.symm.trans hid)
      exact hkey.ne_append (c := 'p') (by decide) (by decide) (by decide) hjoined
  | contextSnapshot snapshot =>
      rw [hrecord] at hwell
      exact hother (.contextSnapshot m.runId snapshot.snapshotId) hwell.2.2 (by simp) id
  | taskGraph graph =>
      rw [hrecord] at hwell
      exact hother (.taskGraph graph.planId) hwell (by simp) id
  | actionResult result =>
      rw [hrecord] at hwell
      exact hother (.actionResult result.planId result.actionId) hwell (by simp) id
  | subAgentResult resultRunId result =>
      rw [hrecord] at hwell
      exact hother (.subAgentResult resultRunId result.nodeId) hwell (by simp) id

/-- The latest record at the place of a plan is the plan that was put last under its key. -/
theorem latest_plan (huuid5 : Injective api.uuid5) {memories : List StoredMemory}
    (hfiled : ∀ m ∈ memories, Filed api m) (hfits : ∀ m ∈ memories, Fits made m.record)
    (workspaceId planId : String) :
    latest memories workspaceId planId (stateMemoryId api [planId, "plan"]) =
      (((plansPut memories).filter fun p => p.key = (workspaceId, planId)).getLast?).map .plan := by
  induction memories using List.reverseRecOn with
  | nil => rfl
  | append_singleton memories m ih =>
      rw [List.forall_mem_append] at hfiled hfits
      have hlast := ih hfiled.1 hfits.1
      have hm := List.forall_mem_singleton.1 hfiled.2
      have happend : (plansPut (memories ++ [m])).filter (fun p => p.key = (workspaceId, planId)) =
          (plansPut memories).filter (fun p => p.key = (workspaceId, planId)) ++
            (plansPut [m]).filter fun p => p.key = (workspaceId, planId) := by
        rw [plansPut, List.filterMap_append, List.filter_append]
        rfl
      rw [latest_append, happend]
      cases hrecord : m.record with
      | plan plan =>
          have hplace := hm.1
          unfold WellFiled at hplace
          rw [hrecord] at hplace
          by_cases hkey : plan.key = (workspaceId, planId)
          · have hfound : (plansPut [m]).filter (fun p => p.key = (workspaceId, planId)) =
                [plan] := by
              simpa [plansPut, planEntry, hrecord] using hkey
            obtain ⟨rfl, rfl⟩ := Prod.mk.inj hkey
            rw [hfound, if_pos hplace, List.getLast?_concat]
            rfl
          · have hnone : (plansPut [m]).filter (fun p => p.key = (workspaceId, planId)) = [] := by
              simpa [plansPut, planEntry, hrecord] using hkey
            rw [hnone, List.append_nil, if_neg, hlast]
            rintro ⟨rfl, rfl, -⟩
            exact hkey (Prod.ext hplace.1.symm hplace.2.1.symm)
      | _ =>
          have hplan : planEntry m.record = none := by rw [hrecord]; rfl
          have hnone : plansPut [m] = [] := by simp [plansPut, hplan]
          have hne := ne_plan_place huuid5 hm (hfits.2 m List.mem_cons_self) hplan planId
          rw [hnone, List.filter_nil, List.append_nil, if_neg fun h => hne h.2.2, hlast]

/-- A new store reads the plan that was saved last under a key. -/
theorem InPlace.fresh_savedLast (huuid5 : Injective api.uuid5) (hfaithful : Faithful api)
    (h : InPlace api made store) {plan : AgentPlan}
    (hlast : SavedLast (plansPut store.memories) plan) :
    (store.fresh.getPlan api plan.workspaceId plan.planId).1 = some plan := by
  refine h.fresh_plan hfaithful ?_
  rw [latest_plan huuid5 h.filed h.fits]
  exact congrArg (Option.map StateRecord.plan) hlast

end Last

end PrismApiStateStore

end PrismAgent
