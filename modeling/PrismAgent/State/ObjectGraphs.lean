import PrismAgent.State.DurableGraphs

/-!
# Task graphs in Object Storage

The transport that the function runtime injects into `PrismApiStateStore`, and what its
invocations read from it: whatever they put, as long as no two operations overlap, the task
graphs are those of one table.
-/

namespace PrismAgent

open Function Lockstep

namespace PrismApiStateStore

variable {τ : Type} (format : RecordFormat τ) (canon sha256 : String → String)
  (objects : ObjectStorageAgentMemoryStore) (api : StateApi)

/-- The API with the run states of Object Storage. A store that cannot be read has none. -/
def objectStorageApi : StateApi :=
  { api with
    fetchRunState := fun memories workspaceId runId =>
      match putMemories format api sha256 objects objects.client.empty memories with
      | .error _ => {}
      | .ok bucket =>
          match objects.fetchRunState canon bucket workspaceId runId with
          | .error _ => {}
          | .ok state => { memories := stateRecords format canon state } }

/-- What Object Storage keeps: memories that are storable, of no run more than one listing
holds. -/
structure Within (limit : ℕ) (memories : List StoredMemory) : Prop where
  storable : ∀ m ∈ memories, Storable format canon m
  listed : ∀ workspaceId runId, (memoryIds memories workspaceId runId).length ≤ limit

variable {format canon sha256 objects api} {limit : ℕ}

theorem Within.returnsLatest {memories : List StoredMemory} (h : Within format canon limit memories)
    (hclient : objects.client.Lawful limit) :
    ReturnsLatest (objectStorageApi format canon sha256 objects api) memories := by
  intro workspaceId runId record
  obtain ⟨bucket, state, hput, hfetch, hrecords⟩ :=
    @fetched_iff_latest _ format canon api sha256 objects limit memories workspaceId runId hclient
      h.storable (h.listed workspaceId runId)
  unfold objectStorageApi
  dsimp only
  rw [hput]
  dsimp only
  rw [hfetch]
  exact hrecords record

/-- The operation finds memories that Object Storage keeps, and puts no idempotency key where a
task graph is. -/
structure InvokedOp.Stored (format : RecordFormat τ) (canon : String → String) (limit : ℕ)
    (o : InvokedOp) (w : Invocations) : Prop where
  within : Within format canon limit w.memories
  free : ∀ i key, o = .op i (.recordIdempotencyKey key) → KeyFree key

theorem InvokedOp.Stored.kept {o : InvokedOp} {w : Invocations} (h : o.Stored format canon limit w)
    (hclient : objects.client.Lawful limit) :
    o.Kept (objectStorageApi format canon sha256 objects api) w := by
  have hreturns := @Within.returnsLatest _ format canon sha256 objects api limit _ h.within hclient
  cases o with
  | start i => trivial
  | op i o =>
      cases o with
      | recordIdempotencyKey key => exact ⟨hreturns, h.free i key rfl⟩
      | _ => exact hreturns

theorem within_nil : Within (textFormat "now") id 1000 [] where
  storable := List.forall_mem_nil _
  listed _ _ := by simp [memoryIds]

end PrismApiStateStore

end PrismAgent
