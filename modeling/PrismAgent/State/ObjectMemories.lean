import PrismAgent.ColdStart.Transport
import PrismAgent.State.ObjectStorage
import PrismAgent.State.Refines
import PrismAgent.Text.Joined

/-!
# What Object Storage returns

After any puts, the records that are replayed for a run are the latest ones under the memory ids
of the run, with their dictionaries in the order of the keys. The ids under which records are put
must hold no slash, and the run must not have more memories than one listing holds.
-/

namespace PrismAgent

open JsonText

namespace ObjectStorageAgentMemoryStore

section Names

variable (store : ObjectStorageAgentMemoryStore) {workspaceId runId workspaceId' runId' : String}

theorem toList_runPrefix (workspaceId runId : String) :
    (store.runPrefix workspaceId runId).toList =
      store.namePrefix.toList ++ '/' :: (workspaceId.toList ++ '/' :: (runId.toList ++ ['/'])) := by
  simp [runPrefix, String.toList_append]

theorem toList_objectName (workspaceId runId memoryId : String) :
    (store.objectName workspaceId runId memoryId).toList =
      store.namePrefix.toList ++ '/' :: (workspaceId.toList ++
        '/' :: (runId.toList ++ '/' :: (memoryId.toList ++ ".json".toList))) := by
  simp [objectName, toList_runPrefix, String.toList_append]

theorem startsWith_objectName (workspaceId runId memoryId : String) :
    ObjectStorageClient.StartsWith (store.objectName workspaceId runId memoryId)
      (store.runPrefix workspaceId runId) :=
  ⟨memoryId.toList ++ ".json".toList, by simp [objectName, String.toList_append]⟩

/-- The last part of a name holds no slash. -/
theorem slash_notMem_memoryName {memoryId : String} (hmemory : '/' ∉ memoryId.toList) :
    '/' ∉ memoryId.toList ++ ".json".toList := by
  have hjson : '/' ∉ ".json".toList := by decide
  rw [List.mem_append, not_or]
  exact ⟨hmemory, hjson⟩

variable {memoryId : String} (hworkspace : '/' ∉ workspaceId.toList) (hrun : '/' ∉ runId.toList)
  (hmemory : '/' ∉ memoryId.toList)

include hworkspace hrun hmemory

/-- An object has the prefix of its own run only. -/
theorem startsWith_runPrefix_iff :
    ObjectStorageClient.StartsWith (store.objectName workspaceId runId memoryId)
        (store.runPrefix workspaceId' runId') ↔ workspaceId = workspaceId' ∧ runId = runId' := by
  unfold ObjectStorageClient.StartsWith
  rw [toList_runPrefix, toList_objectName, List.prefix_append_right_inj, List.cons_prefix_cons]
  constructor
  · rintro ⟨-, t, ht⟩
    simp only [List.append_assoc, List.cons_append, List.nil_append] at ht
    obtain ⟨hws, hr, -⟩ := Joined.append_cons_cons_inj hworkspace hrun
      (slash_notMem_memoryName hmemory) ht.symm
    exact ⟨String.toList_injective hws, String.toList_injective hr⟩
  · rintro ⟨rfl, rfl⟩
    exact ⟨rfl, memoryId.toList ++ ".json".toList, by simp⟩

/-- The name of an object tells its run and its memory. -/
theorem objectName_inj {memoryId' : String} :
    store.objectName workspaceId runId memoryId = store.objectName workspaceId' runId' memoryId' ↔
      workspaceId = workspaceId' ∧ runId = runId' ∧ memoryId = memoryId' := by
  constructor
  · intro h
    have hlist := congrArg String.toList h
    rw [toList_objectName, toList_objectName] at hlist
    obtain ⟨hws, hr, hid⟩ := Joined.append_cons_cons_inj hworkspace hrun
      (slash_notMem_memoryName hmemory) (List.cons.inj (List.append_cancel_left hlist)).2
    exact ⟨String.toList_injective hws, String.toList_injective hr,
      String.toList_injective (List.append_cancel_right hid)⟩
  · rintro ⟨rfl, rfl, rfl⟩
    rfl

end Names

end ObjectStorageAgentMemoryStore

namespace PrismApiStateStore

variable {τ : Type} (format : RecordFormat τ) (canon : String → String) (api : StateApi)
  (sha256 : String → String)

/-- A memory that Object Storage keeps: its ids make a name, and the text of its record keeps
the record, whose floats are numbers. -/
structure Storable (m : StoredMemory) : Prop where
  workspaceId : '/' ∉ m.workspaceId.toList
  runId : '/' ∉ m.runId.toList
  memoryId : m.memoryId ≠ ""
  flat : '/' ∉ m.memoryId.toList
  lists : m.record.ListsObjects
  finite : m.record.Finite format canon

section Records

variable {workspaceId runId memoryId : String} (hworkspace : '/' ∉ workspaceId.toList)
  (hrun : '/' ∉ runId.toList) (hmemory : memoryId ≠ "" ∧ '/' ∉ memoryId.toList)

include hworkspace hrun hmemory

theorem storable_idempotencyKey (key : String) :
    Storable format canon ⟨workspaceId, runId, memoryId, .idempotencyKey key⟩ :=
  ⟨hworkspace, hrun, hmemory.1, hmemory.2, trivial, StateRecord.keys_dump_nodup _, trivial,
    trivial, trivial⟩

end Records

section Payload

variable (m : StoredMemory)

theorem lookup_memoryPayload :
    (memoryPayload format api sha256 m).lookup "memoryId" = some (.str m.memoryId) ∧
      (memoryPayload format api sha256 m).lookup "content" =
        some (.str (m.record.content format)) := by
  simp [memoryPayload, List.lookup_cons]

theorem memoryIdOf_memoryPayload (h : m.memoryId ≠ "") :
    ObjectStorageAgentMemoryStore.memoryIdOf (memoryPayload format api sha256 m) =
      m.memoryId := by
  unfold ObjectStorageAgentMemoryStore.memoryIdOf
  rw [(lookup_memoryPayload format api sha256 m).1]
  exact if_pos (decide_eq_true h)

/-- The body of a memory is decoded to its payload. -/
theorem loads_memoryPayload :
    loads canon (dumps .dumps (.obj (memoryPayload format api sha256 m))) =
      some (.obj (memoryPayload format api sha256 m)) := by
  refine loads_dumps ?_
  unfold memoryPayload
  split
  · exact ⟨by simp [Dict.keys], trivial, trivial, trivial, trivial, trivial, trivial, trivial⟩
  · exact ⟨by simp [Dict.keys], trivial, trivial, trivial, trivial, trivial, trivial, trivial,
      trivial⟩

end Payload

section Puts

variable (store : ObjectStorageAgentMemoryStore)

/-- The memories that the state store persists, put one after the other. -/
def putMemories (bucket : store.client.Bucket) (memories : List StoredMemory) :
    Except Exc store.client.Bucket :=
  memories.foldlM (fun bucket m => store.putMemory bucket m.workspaceId m.runId
    (memoryPayload format api sha256 m)) bucket

/-- The memory that was put last under a name. -/
def lastAt (memories : List StoredMemory) (name : String) : Option StoredMemory :=
  (memories.filter fun m => store.objectName m.workspaceId m.runId m.memoryId = name).getLast?

variable {store} {limit : ℕ} {memories : List StoredMemory}

theorem lastAt_append (m : StoredMemory) (name : String) :
    lastAt store (memories ++ [m]) name =
      if store.objectName m.workspaceId m.runId m.memoryId = name then some m
      else lastAt store memories name := by
  unfold lastAt
  rw [List.filter_append]
  split
  next h => simp [h]
  next h => simp [h]

theorem mem_of_lastAt {m : StoredMemory} {name : String} (h : lastAt store memories name = some m) :
    m ∈ memories ∧ store.objectName m.workspaceId m.runId m.memoryId = name := by
  obtain ⟨hmem, hname⟩ := List.mem_filter.1 (List.mem_of_getLast? h)
  exact ⟨hmem, of_decide_eq_true hname⟩

/-- Puts of memories with an id succeed, and each object is what was put last. -/
theorem exists_putMemories (hclient : store.client.Lawful limit)
    (hids : ∀ m ∈ memories, m.memoryId ≠ "") :
    ∃ bucket, putMemories format api sha256 store store.client.empty memories = .ok bucket ∧
      ∀ name, store.client.getObject bucket name = (lastAt store memories name).map fun m =>
        (dumps .dumps (.obj (memoryPayload format api sha256 m))).toByteArray := by
  induction memories using List.reverseRecOn with
  | nil => exact ⟨_, rfl, hclient.getObject_empty⟩
  | append_singleton memories m ih =>
      obtain ⟨bucket, hput, hget⟩ := ih fun m hm => hids m (List.mem_append_left _ hm)
      have hid : m.memoryId ≠ "" := hids m (List.mem_append_right _ (List.mem_singleton_self m))
      refine ⟨store.client.putObject bucket (store.objectName m.workspaceId m.runId m.memoryId)
        (dumps .dumps (.obj (memoryPayload format api sha256 m))).toByteArray, ?_,
        fun name => ?_⟩
      · unfold putMemories at *
        rw [List.foldlM_append, hput]
        change store.putMemory bucket m.workspaceId m.runId _ >>= pure = _
        rw [bind_pure]
        unfold ObjectStorageAgentMemoryStore.putMemory
        rw [memoryIdOf_memoryPayload format api sha256 m hid, if_neg hid]
      · rw [hclient.getObject_putObject, lastAt_append, hget]
        split
        · rfl
        · rfl

/-- The objects that were put are read as the payloads of their memories. -/
theorem readMemories_eq {bucket : store.client.Bucket}
    (hget : ∀ name, store.client.getObject bucket name = (lastAt store memories name).map fun m =>
      (dumps .dumps (.obj (memoryPayload format api sha256 m))).toByteArray)
    {names : List String} (hnames : ∀ name ∈ names, (store.client.getObject bucket name).isSome) :
    store.readMemories canon bucket names =
      .ok ((names.filterMap (lastAt store memories)).map (memoryPayload format api sha256)) := by
  induction names with
  | nil => rfl
  | cons name names ih =>
      have hutf8 : ∀ s : String, String.fromUTF8? s.toByteArray = some s := fun s =>
        dif_pos s.isValidUTF8
      have hname := hnames name List.mem_cons_self
      rw [hget] at hname
      cases hlast : lastAt store memories name with
      | none =>
          rw [hlast] at hname
          cases hname
      | some m =>
          unfold ObjectStorageAgentMemoryStore.readMemories
          rw [hget, hlast, ih fun name hmem => hnames name (List.mem_cons_of_mem _ hmem),
            List.filterMap_cons_some hlast, List.map_cons]
          simp only [Option.map_some, Option.elim_some, hutf8, bind, Except.bind,
            loads_memoryPayload]
          rfl

end Puts

section Fetch

variable {format canon api sha256} {store : ObjectStorageAgentMemoryStore} {limit : ℕ}
  {memories : List StoredMemory} {workspaceId runId : String}

/-- The ids of the memories of a run. -/
def memoryIds (memories : List StoredMemory) (workspaceId runId : String) : List String :=
  ((memories.filter fun m => m.workspaceId = workspaceId ∧ m.runId = runId).map
    (·.memoryId)).dedup

theorem memoryRecord_memoryPayload {m : StoredMemory} (h : Storable format canon m) :
    memoryRecord format canon (.obj (memoryPayload format api sha256 m)) =
      some m.record.sorted := by
  have hcontent := (lookup_memoryPayload format api sha256 m).2
  unfold memoryRecord
  dsimp only
  rw [hcontent, Option.bind_some, StateRecord.load_content h.lists h.finite]

/-- The payloads of storable memories are replayed as their sorted records. -/
theorem stateRecords_payloads {ms : List StoredMemory} (h : ∀ m ∈ ms, Storable format canon m) :
    stateRecords format canon
        [("memories", .arr ((ms.map (memoryPayload format api sha256)).map .obj))] =
      ms.map fun m => m.record.sorted := by
  change ((ms.map _).map Json.obj).filterMap (memoryRecord format canon) = _
  induction ms with
  | nil => rfl
  | cons m ms ih =>
      rw [List.map_cons, List.map_cons, List.filterMap_cons_some
        (memoryRecord_memoryPayload (h m List.mem_cons_self)),
        ih fun m' hm' => h m' (List.mem_cons_of_mem m hm'), List.map_cons]

/-- Under the name of a memory the latest record of its place was put last. -/
theorem latest_eq_lastAt (hstorable : ∀ m ∈ memories, Storable format canon m)
    (workspaceId runId memoryId : String) :
    latest memories workspaceId runId memoryId =
      (lastAt store memories (store.objectName workspaceId runId memoryId)).map (·.record) := by
  unfold latest lastAt
  congr 2
  refine List.filter_congr fun m hm => decide_eq_decide.2 ?_
  exact (store.objectName_inj (hstorable m hm).workspaceId (hstorable m hm).runId
    (hstorable m hm).flat).symm

/-- A listed object is the last put of one of the run's memories, and each of them is listed. -/
theorem listed_iff (hclient : store.client.Lawful limit)
    (hstorable : ∀ m ∈ memories, Storable format canon m)
    (hcount : (memoryIds memories workspaceId runId).length ≤ limit)
    {bucket : store.client.Bucket}
    (hget : ∀ name, store.client.getObject bucket name = (lastAt store memories name).map fun m =>
      (dumps .dumps (.obj (memoryPayload format api sha256 m))).toByteArray) (name : String) :
    name ∈ store.client.listObjects bucket (store.runPrefix workspaceId runId) ↔
      ∃ memoryId, name = store.objectName workspaceId runId memoryId ∧
        (lastAt store memories name).isSome := by
  have hobject : ∀ name, (store.client.getObject bucket name).isSome =
      (lastAt store memories name).isSome := fun name => by rw [hget, Option.isSome_map]
  have hname : ∀ name, ObjectStorageClient.StartsWith name (store.runPrefix workspaceId runId) →
      (lastAt store memories name).isSome → ∃ memoryId ∈ memoryIds memories workspaceId runId,
        name = store.objectName workspaceId runId memoryId := by
    intro name hstarts hsome
    obtain ⟨m, hm⟩ := Option.isSome_iff_exists.1 hsome
    obtain ⟨hmem, rfl⟩ := mem_of_lastAt hm
    obtain ⟨rfl, rfl⟩ := (store.startsWith_runPrefix_iff (hstorable m hmem).workspaceId
      (hstorable m hmem).runId (hstorable m hmem).flat).1 hstarts
    exact ⟨m.memoryId, List.mem_dedup.2 (List.mem_map_of_mem (List.mem_filter.2
      ⟨hmem, decide_eq_true ⟨rfl, rfl⟩⟩)), rfl⟩
  constructor
  · intro hlisted
    obtain ⟨hstarts, hsome⟩ := hclient.listed _ _ _ hlisted
    rw [hobject] at hsome
    obtain ⟨memoryId, -, rfl⟩ := hname name hstarts hsome
    exact ⟨memoryId, rfl, hsome⟩
  · rintro ⟨memoryId, rfl, hsome⟩
    refine hclient.complete bucket _
      ((memoryIds memories workspaceId runId).map (store.objectName workspaceId runId))
      (by rwa [List.length_map]) (fun name hstarts hsome => ?_) _ ?_ ?_
    · rw [hobject] at hsome
      obtain ⟨memoryId, hmem, rfl⟩ := hname name hstarts hsome
      exact List.mem_map_of_mem hmem
    · exact store.startsWith_objectName workspaceId runId memoryId
    · rwa [hobject]

/-- What is replayed for a run is the latest record under each of its memory ids. -/
theorem fetched_iff_latest (hclient : store.client.Lawful limit)
    (hstorable : ∀ m ∈ memories, Storable format canon m)
    (hcount : (memoryIds memories workspaceId runId).length ≤ limit) :
    ∃ bucket state,
      putMemories format api sha256 store store.client.empty memories = .ok bucket ∧
        store.fetchRunState canon bucket workspaceId runId = .ok state ∧
          ∀ record, record ∈ stateRecords format canon state ↔
            ∃ memoryId put, latest memories workspaceId runId memoryId = some put ∧
              record = put.sorted := by
  obtain ⟨bucket, hput, hget⟩ := exists_putMemories format api sha256 hclient
    fun m hm => (hstorable m hm).memoryId
  have hlisted := listed_iff hclient hstorable hcount hget
  have hfetch : store.fetchRunState canon bucket workspaceId runId =
      .ok [("memories", .arr ((((store.client.listObjects bucket
        (store.runPrefix workspaceId runId)).filterMap (lastAt store memories)).map
          (memoryPayload format api sha256)).map .obj))] := by
    unfold ObjectStorageAgentMemoryStore.fetchRunState
      ObjectStorageAgentMemoryStore.listMemories
    rw [readMemories_eq format canon api sha256 hget fun name hname =>
      (hclient.listed _ _ _ hname).2]
    rfl
  refine ⟨bucket, _, hput, hfetch, fun record => ?_⟩
  rw [stateRecords_payloads fun m hm => ?_]
  · simp only [List.mem_map, List.mem_filterMap, hlisted]
    constructor
    · rintro ⟨m, ⟨name, ⟨memoryId, rfl, -⟩, hlast⟩, rfl⟩
      have hlatest : latest memories workspaceId runId memoryId = some m.record := by
        rw [latest_eq_lastAt hstorable, hlast]
        rfl
      exact ⟨memoryId, m.record, hlatest, rfl⟩
    · rintro ⟨memoryId, put, hlatest, rfl⟩
      rw [@latest_eq_lastAt _ _ _ store _ hstorable] at hlatest
      obtain ⟨m, hlast, rfl⟩ := Option.map_eq_some_iff.1 hlatest
      exact ⟨m, ⟨_, ⟨memoryId, rfl, by rw [hlast]; rfl⟩, hlast⟩, rfl⟩
  · obtain ⟨name, -, hlast⟩ := List.mem_filterMap.1 hm
    exact hstorable m (mem_of_lastAt hlast).1

/-- What other runs put changes nothing: the records that are replayed for a run are the latest
ones under each of its own memory ids. -/
theorem replayed_among_others {later : List StoredMemory} (hclient : store.client.Lawful limit)
    (hstorable : ∀ m ∈ memories ++ later, Storable format canon m)
    (hothers : ∀ m ∈ later, ¬ (m.workspaceId = workspaceId ∧ m.runId = runId))
    (hcount : (memoryIds memories workspaceId runId).length ≤ limit) :
    ∃ bucket state,
      putMemories format api sha256 store store.client.empty (memories ++ later) = .ok bucket ∧
        store.fetchRunState canon bucket workspaceId runId = .ok state ∧
          ∀ record, record ∈ stateRecords format canon state ↔
            ∃ memoryId put, latest memories workspaceId runId memoryId = some put ∧
              record = put.sorted := by
  have hlatest : ∀ memoryId, latest (memories ++ later) workspaceId runId memoryId =
      latest memories workspaceId runId memoryId := by
    intro memoryId
    have hnone : (later.filter fun m => m.workspaceId = workspaceId ∧ m.runId = runId ∧
        m.memoryId = memoryId) = [] := by
      refine List.filter_eq_nil_iff.2 fun m hm hplace => ?_
      obtain ⟨hws, hrun, -⟩ := of_decide_eq_true hplace
      exact hothers m hm ⟨hws, hrun⟩
    unfold latest
    rw [List.filter_append, hnone, List.append_nil]
  have hids : memoryIds (memories ++ later) workspaceId runId =
      memoryIds memories workspaceId runId := by
    have hnone : (later.filter fun m => m.workspaceId = workspaceId ∧ m.runId = runId) = [] :=
      List.filter_eq_nil_iff.2 fun m hm hplace => hothers m hm (of_decide_eq_true hplace)
    unfold memoryIds
    rw [List.filter_append, hnone, List.append_nil]
  obtain ⟨bucket, state, hput, hfetch, hrecords⟩ :=
    @fetched_iff_latest _ format canon api sha256 store limit (memories ++ later) workspaceId runId
      hclient hstorable (by rwa [hids])
  refine ⟨bucket, state, hput, hfetch, fun record => ?_⟩
  simp only [hrecords, hlatest]

/-- Of two keys that are put under one memory id the later one is replayed, and not the one of
the run whose id goes on. -/
theorem replayed_among_others_sample :
    ∃ bucket state,
      putMemories (textFormat "now") latestApi id ⟨.dictClient, "agent-state"⟩ []
          [⟨"ws", "run", "m", .idempotencyKey "first"⟩,
            ⟨"ws", "run", "m", .idempotencyKey "second"⟩,
            ⟨"ws", "run1", "m", .idempotencyKey "third"⟩] = .ok bucket ∧
        ObjectStorageAgentMemoryStore.fetchRunState ⟨.dictClient, "agent-state"⟩ id bucket "ws"
            "run" = .ok state ∧
          ∀ record, record ∈ stateRecords (textFormat "now") id state ↔
            record = .idempotencyKey "second" := by
  have hstorable : ∀ runId ∈ ["run", "run1"], ∀ key,
      Storable (textFormat "now") id ⟨"ws", runId, "m", .idempotencyKey key⟩ := by
    intro runId hrun key
    have hslash : ∀ runId ∈ ["run", "run1"], '/' ∉ runId.toList := by decide
    exact storable_idempotencyKey _ _ (by decide) (hslash runId hrun) (by decide) key
  obtain ⟨bucket, state, hput, hfetch, hrecords⟩ :=
    @replayed_among_others _ (textFormat "now") id latestApi id ⟨.dictClient, "agent-state"⟩ 1000
      [⟨"ws", "run", "m", .idempotencyKey "first"⟩, ⟨"ws", "run", "m", .idempotencyKey "second"⟩]
      "ws" "run" [⟨"ws", "run1", "m", .idempotencyKey "third"⟩]
      (ObjectStorageClient.lawful_dictClient 1000) (by simp [hstorable]) (by simp)
      (by simp [memoryIds])
  refine ⟨bucket, state, hput, hfetch, fun record => (hrecords record).trans ?_⟩
  constructor
  · rintro ⟨memoryId, put, hlatest, rfl⟩
    by_cases hid : "m" = memoryId
    · simp [latest, hid] at hlatest
      rw [← hlatest, StateRecord.sorted]
    · simp [latest, hid] at hlatest
  · rintro rfl
    exact ⟨"m", .idempotencyKey "second", by simp [latest], rfl⟩

/-- A slash in the id of a run puts its memories among those of another run. -/
example : ObjectStorageClient.StartsWith
    (ObjectStorageAgentMemoryStore.objectName ⟨.dictClient, "agent-state"⟩ "ws" "run/1" "m")
    (ObjectStorageAgentMemoryStore.runPrefix ⟨.dictClient, "agent-state"⟩ "ws" "run") := by
  unfold ObjectStorageClient.StartsWith
  decide

end Fetch

end PrismApiStateStore

end PrismAgent
