import PrismAgent.State.PrismApi
import PrismAgent.State.RecordText
import PrismAgent.Wire.Contents

/-!
# Memories in Object Storage

`infrastructure/object_storage/oci_agent_memory_store.py`: a memory is an object under the
prefix of its run, and the memories of a run are the objects that are listed under the prefix.
The client is a parameter. A listing is not continued, so it holds what one answer of the
service holds.
-/

namespace PrismAgent

open JsonText

/-- What the store uses of `ObjectStorageClient`, for one bucket. -/
structure ObjectStorageClient where
  Bucket : Type
  empty : Bucket
  putObject : Bucket → String → ByteArray → Bucket
  getObject : Bucket → String → Option ByteArray
  listObjects : Bucket → String → List String

namespace ObjectStorageClient

/-- The name starts with the text. -/
def StartsWith (name text : String) : Prop := text.toList <+: name.toList

/-- An object is what was put last under its name. A listing under a prefix holds objects that
have it, and all of them if they are no more than `limit`. -/
structure Lawful (client : ObjectStorageClient) (limit : ℕ) : Prop where
  getObject_empty : ∀ name, client.getObject client.empty name = none
  getObject_putObject : ∀ bucket name body name',
    client.getObject (client.putObject bucket name body) name' =
      if name = name' then some body else client.getObject bucket name'
  listed : ∀ bucket text name, name ∈ client.listObjects bucket text →
    StartsWith name text ∧ (client.getObject bucket name).isSome
  complete : ∀ bucket text (names : List String), names.length ≤ limit →
    (∀ name, StartsWith name text → (client.getObject bucket name).isSome → name ∈ names) →
      ∀ name, StartsWith name text → (client.getObject bucket name).isSome →
        name ∈ client.listObjects bucket text

/-- A client that keeps the bucket in a dictionary, and lists all of it. -/
def dictClient : ObjectStorageClient where
  Bucket := Dict String ByteArray
  empty := []
  putObject := Dict.insert
  getObject bucket name := bucket.lookup name
  listObjects bucket text :=
    (Dict.keys bucket).filter fun name => text.toList.isPrefixOf name.toList

theorem lawful_dictClient (limit : ℕ) : dictClient.Lawful limit where
  getObject_empty _ := rfl
  getObject_putObject bucket name body name' := by
    refine (Dict.lookup_insert bucket name name' body).trans ?_
    by_cases hname : name = name'
    · rw [if_pos hname, if_pos hname.symm]
    · rw [if_neg hname, if_neg (Ne.symm hname)]
      rfl
  listed bucket text name h := by
    obtain ⟨hkey, hstarts⟩ := List.mem_filter.1 h
    exact ⟨List.isPrefixOf_iff_prefix.1 hstarts, Dict.isSome_lookup_iff.2 hkey⟩
  complete bucket text names _ _ name hstarts hsome :=
    List.mem_filter.2 ⟨Dict.isSome_lookup_iff.1 hsome, List.isPrefixOf_iff_prefix.2 hstarts⟩

end ObjectStorageClient

structure ObjectStorageAgentMemoryStore where
  client : ObjectStorageClient
  namePrefix : String

namespace ObjectStorageAgentMemoryStore

variable (store : ObjectStorageAgentMemoryStore) (canon : String → String)

def runPrefix (workspaceId runId : String) : String :=
  store.namePrefix ++ "/" ++ workspaceId ++ "/" ++ runId ++ "/"

def objectName (workspaceId runId memoryId : String) : String :=
  store.runPrefix workspaceId runId ++ memoryId ++ ".json"

/-- `str(payload.get("memoryId") or "")`. -/
def memoryIdOf (payload : Fields) : String :=
  match payload.lookup "memoryId" with
  | some v => if v.truthy then v.toStr else ""
  | none => ""

def putMemory (bucket : store.client.Bucket) (workspaceId runId : String) (payload : Fields) :
    Except Exc store.client.Bucket :=
  if memoryIdOf payload = "" then
    .error (.valueError "Agent memory payload requires a memoryId.")
  else
    .ok (store.client.putObject bucket
      (store.objectName workspaceId runId (memoryIdOf payload))
      (dumps .dumps (.obj payload)).toByteArray)

/-- The memories of the listed objects; an object that holds no JSON object is passed over. -/
def readMemories (bucket : store.client.Bucket) : List String → Except Exc (List Fields)
  | [] => .ok []
  | name :: names => do
      let body ← (store.client.getObject bucket name).elim
        (.error (.external "ServiceError" "")) .ok
      let raw ← (String.fromUTF8? body).elim (.error (.external "UnicodeDecodeError" "")) .ok
      let memories ← readMemories bucket names
      match loads canon raw with
      | some (.obj decoded) => return decoded :: memories
      | _ => return memories

def listMemories (bucket : store.client.Bucket) (workspaceId runId : String) :
    Except Exc (List Fields) :=
  store.readMemories canon bucket
    (store.client.listObjects bucket (store.runPrefix workspaceId runId))

def fetchRunState (bucket : store.client.Bucket) (workspaceId runId : String) :
    Except Exc Fields := do
  let memories ← store.listMemories canon bucket workspaceId runId
  return [("memories", .arr (memories.map .obj))]

end ObjectStorageAgentMemoryStore

namespace PrismApiStateStore

variable {τ : Type} (format : RecordFormat τ) (canon : String → String)

/-- The type and the title of the memory of a record. -/
def memoryLabels : StateRecord → String × String
  | .plan _ => ("agent_plan", "Agent plan")
  | .contextSnapshot _ => ("agent_decision", "Context snapshot")
  | .actionResult _ => ("agent_result", "Action result")
  | .taskGraph _ => ("agent_decision", "Task graph")
  | .subAgentResult _ _ => ("agent_result", "Subagent result")
  | .idempotencyKey _ => ("agent_decision", "Idempotency key")

/-- The step that the memory of a record names. -/
def stepOf : StateRecord → String
  | .actionResult result => result.actionId
  | _ => ""

/-- The payload that `_persist_state_memory` puts. -/
def memoryPayload (api : StateApi) (sha256 : String → String) (m : StoredMemory) : Fields :=
  [("memoryId", .str m.memoryId), ("runId", .str m.runId),
    ("memoryType", .str (memoryLabels m.record).1),
    ("title", .str (String.ofList ((memoryLabels m.record).2.toList.take 100))),
    ("content", .str (m.record.content format)),
    ("contentHash", .str (sha256 (m.record.content format)))] ++
    (if stepOf m.record = "" then []
      else [("stepId", .str (stateMemoryId api [m.runId, stepOf m.record, "step"]))])

/-- The record of a memory. -/
def memoryRecord : Json → Option StateRecord
  | .obj memory => (memory.lookup "content").bind (StateRecord.load format canon)
  | _ => none

/-- The records that `_load_state_memories` replays. -/
def stateRecords (state : Fields) : List StateRecord :=
  match state.lookup "memories" with
  | some (.arr memories) => memories.filterMap (memoryRecord format canon)
  | _ => []

end PrismApiStateStore

end PrismAgent
