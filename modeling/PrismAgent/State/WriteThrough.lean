import PrismAgent.State.Identities

/-!
# Writing through

Every record belongs to a cell of the fallback, and a write puts its record there and, as a
payload, under the record's place. A fallback that holds the latest record of every place is
left as it is when a run is replayed. A write keeps it so if no other place holds another
record of the cell.
-/

namespace PrismAgent

open Function

namespace PrismApiStateStore

/-- Where the fallback keeps a record. -/
inductive Cell
  | plan (workspaceId planId : String)
  | contextSnapshot (workspaceId snapshotId : String)
  | actionResult (planId actionId : String)
  | taskGraph (workspaceId planId : String)
  | subAgentResult (workspaceId runId nodeId : String)
  | idempotencyKey (key : String)

/-- The cell of a record that is put for a run. -/
def cell (workspaceId runId : String) : StateRecord → Cell
  | .plan plan => .plan plan.workspaceId plan.planId
  | .contextSnapshot snapshot => .contextSnapshot snapshot.workspaceId snapshot.snapshotId
  | .actionResult result => .actionResult result.planId result.actionId
  | .taskGraph graph => .taskGraph graph.workspaceId graph.planId
  | .subAgentResult resultRunId result =>
      .subAgentResult workspaceId (if resultRunId = "" then runId else resultRunId) result.nodeId
  | .idempotencyKey key => .idempotencyKey key

/-- The fallback with the record. -/
def writeRecord (workspaceId runId : String) (fallback : MemoryStateStore) :
    StateRecord → MemoryStateStore
  | .plan plan => fallback.savePlan plan
  | .contextSnapshot snapshot => fallback.saveContextSnapshot snapshot
  | .actionResult result => fallback.saveActionResult result
  | .taskGraph graph => fallback.saveTaskGraph graph
  | .subAgentResult resultRunId result =>
      fallback.saveSubAgentResult workspaceId (if resultRunId = "" then runId else resultRunId)
        result
  | .idempotencyKey key => fallback.recordIdempotencyKey key

/-- The fallback has the record in its cell. -/
def Held (workspaceId runId : String) (fallback : MemoryStateStore) : StateRecord → Prop
  | .plan plan => fallback.plans (plan.workspaceId, plan.planId) = some plan
  | .contextSnapshot snapshot =>
      fallback.contextSnapshots (snapshot.workspaceId, snapshot.snapshotId) = some snapshot
  | .actionResult result =>
      fallback.actionResults (result.planId, result.actionId) = some result
  | .taskGraph graph => fallback.taskGraphs (graph.workspaceId, graph.planId) = some graph
  | .subAgentResult resultRunId result =>
      (fallback.subAgentResults
        (workspaceId, if resultRunId = "" then runId else resultRunId)).lookup result.nodeId =
          some result
  | .idempotencyKey key => key ∈ fallback.idempotencyKeys

section Cells

variable {workspaceId runId workspaceId' runId' : String} {fallback : MemoryStateStore}
  {record record' : StateRecord}

theorem update_of_eq {κ ν : Type} [DecidableEq κ] {table : κ → Option ν} {key : κ} {value : ν}
    (h : table key = some value) : update table key (some value) = table := by
  rw [← h, update_eq_self]

/-- Writing a record that is there changes nothing. -/
theorem writeRecord_of_held (h : Held workspaceId runId fallback record) :
    writeRecord workspaceId runId fallback record = fallback := by
  cases record with
  | plan plan => exact congrArg (fun plans => { fallback with plans }) (update_of_eq h)
  | contextSnapshot snapshot =>
      exact congrArg (fun contextSnapshots => { fallback with contextSnapshots }) (update_of_eq h)
  | actionResult result =>
      exact congrArg (fun actionResults => { fallback with actionResults }) (update_of_eq h)
  | taskGraph graph =>
      exact congrArg (fun taskGraphs => { fallback with taskGraphs }) (update_of_eq h)
  | subAgentResult resultRunId result =>
      refine congrArg (fun subAgentResults => { fallback with subAgentResults }) ?_
      rw [Dict.insert_of_lookup h, update_eq_self]
  | idempotencyKey key =>
      exact congrArg (fun idempotencyKeys => { fallback with idempotencyKeys })
        (Finset.insert_eq_self.2 h)

theorem held_writeRecord : Held workspaceId runId (writeRecord workspaceId runId fallback record)
    record := by
  cases record with
  | subAgentResult resultRunId result =>
      change
        (update fallback.subAgentResults _ _ (workspaceId, _)).lookup result.nodeId = some result
      rw [update_self, Dict.lookup_insert_self]
  | idempotencyKey key => exact Finset.mem_insert_self key _
  | _ => exact update_self ..

/-- What a record needs to be there depends on its cell. -/
theorem held_of_cell_eq (hcell : cell workspaceId runId record = cell workspaceId' runId' record)
    (h : Held workspaceId runId fallback record) : Held workspaceId' runId' fallback record := by
  cases record with
  | subAgentResult resultRunId result =>
      obtain ⟨hworkspace, hrun, -⟩ := Cell.subAgentResult.inj hcell
      change (fallback.subAgentResults (workspaceId', _)).lookup result.nodeId = some result
      rw [← hworkspace, ← hrun]
      exact h
  | _ => exact h

/-- A record in another cell stays where it is. -/
theorem held_writeRecord_of_ne
    (hne : cell workspaceId' runId' record' ≠ cell workspaceId runId record)
    (h : Held workspaceId' runId' fallback record') :
    Held workspaceId' runId' (writeRecord workspaceId runId fallback record) record' := by
  cases record with
  | plan plan =>
      cases record' with
      | plan plan' =>
          refine (update_of_ne (fun hkey => hne ?_) _ _).trans h
          obtain ⟨hworkspace, hplan⟩ := Prod.mk.inj hkey
          rw [cell, cell, hworkspace, hplan]
      | _ => exact h
  | contextSnapshot snapshot =>
      cases record' with
      | contextSnapshot snapshot' =>
          refine (update_of_ne (fun hkey => hne ?_) _ _).trans h
          obtain ⟨hworkspace, hsnapshot⟩ := Prod.mk.inj hkey
          rw [cell, cell, hworkspace, hsnapshot]
      | _ => exact h
  | actionResult result =>
      cases record' with
      | actionResult result' =>
          refine (update_of_ne (fun hkey => hne ?_) _ _).trans h
          obtain ⟨hplan, haction⟩ := Prod.mk.inj hkey
          rw [cell, cell, hplan, haction]
      | _ => exact h
  | taskGraph graph =>
      cases record' with
      | taskGraph graph' =>
          refine (update_of_ne (fun hkey => hne ?_) _ _).trans h
          obtain ⟨hworkspace, hplan⟩ := Prod.mk.inj hkey
          rw [cell, cell, hworkspace, hplan]
      | _ => exact h
  | subAgentResult resultRunId result =>
      cases record' with
      | subAgentResult resultRunId' result' =>
          change (update fallback.subAgentResults _ _ (workspaceId', _)).lookup result'.nodeId =
            some result'
          by_cases hkey : (workspaceId', if resultRunId' = "" then runId' else resultRunId') =
              (workspaceId, if resultRunId = "" then runId else resultRunId)
          · rw [hkey, update_self, Dict.lookup_insert_of_ne, ← hkey]
            · exact h
            · intro hnode
              obtain ⟨hworkspace, hrun⟩ := Prod.mk.inj hkey
              exact hne (by rw [cell, cell, hworkspace, hrun, hnode])
          · rw [update_of_ne hkey]
            exact h
      | _ => exact h
  | idempotencyKey key =>
      cases record' with
      | idempotencyKey key' => exact Finset.mem_insert_of_mem h
      | _ => exact h

end Cells

end PrismApiStateStore

end PrismAgent
