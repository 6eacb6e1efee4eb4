import PrismAgent.Backlog.TreeShape
import PrismAgent.Effect.WeakestPrecondition
import PrismAgent.Text.Joined

/-!
# Creating a tree of work items

Either nothing is created, or every node of the tree is, once each and after its parent, whose
id it gets.
-/

namespace PrismAgent

open Effect CreateWorkItemTreeTool
open Forest (Path nodeAt level levels)

section Calls

/-- A call of `create_work_item` and its answer. -/
structure CreateCall where
  projectId : String
  payload : Fields
  output : Fields

/-- The id that an answer names. -/
def answerId (output : Fields) : Option String := (truthyField output "itemId").map Json.toStr

/-- Every answer names an item, and no two answers the same. -/
structure FreshCalls (calls : List CreateCall) : Prop where
  named : ∀ call ∈ calls, ∃ itemId, answerId call.output = some itemId ∧ itemId ≠ ""
  distinct : (calls.map fun call => answerId call.output).Nodup

/-- The pool makes the calls for the payloads in any order, and hands out the answers in the
order of the payloads. -/
inductive Creates : StepRelation TreeCall TreeCall.Answer Exc (List CreateCall)
  | done {log calls : List CreateCall} {projectId : String} {payloads outputs : List Fields}
      (hlength : outputs.length = payloads.length)
      (hcalls : calls.Perm (List.zipWith (CreateCall.mk projectId) payloads outputs))
      (hfresh : FreshCalls (log ++ calls)) :
      Creates log (.createWorkItems projectId payloads) (.ok outputs) (log ++ calls)

end Calls

section Records

/-- A node that is due to be created. -/
structure Due where
  path : Path
  node : Json
  parentId : Option String

/-- A node and the item created for it. -/
structure CreatedNode extends Due where
  output : Fields

def Due.key (due : Due) : Path × Json := (due.path, due.node)

def Due.toPending (due : Due) : Pending := ⟨due.node, due.parentId, due.path.length⟩

variable (rules : TextRules) (known : Dict String String) (action : PlannedAction)
  (projectId : String) (requester : Option String)

def CreatedNode.itemId (record : CreatedNode) : String := outputId action record.output

/-- The payload of the node, with the requester where there is a client. -/
def Due.payload (due : Due) : Fields :=
  ((nodePayload rules known action due.node due.parentId).toOption).getD []

def CreatedNode.call (record : CreatedNode) : CreateCall :=
  ⟨projectId, withRequester (record.payload rules known action) requester, record.output⟩

/-- What the tool's output says of the node. -/
def CreatedNode.entry (record : CreatedNode) : Json :=
  .obj [("itemId", .str (record.itemId action)),
    ("parentId", (record.parentId.map Json.str).getD .null),
    ("depth", .int record.path.length),
    ("title", .str (nodeTitle (record.node.asObj?.getD [])))]

/-- The node is a root below the given item, or its parent is among the created and gave it
its id. -/
def Linked (root : Option String) (created : List CreatedNode) (due : Due) : Prop :=
  (due.path.length = 1 ∧ due.parentId = root) ∨
    ∃ parent ∈ created, ∃ i, due.path = parent.path ++ [i] ∧
      due.parentId = some (parent.itemId action)

/-- Each node is created after its parent. -/
def ParentsFirst (root : Option String) : List CreatedNode → List CreatedNode → Prop
  | _, [] => True
  | created, record :: records =>
      Linked action root created record.toDue ∧ ParentsFirst root (created ++ [record]) records

variable {action} {root : Option String}

theorem parentsFirst_append {created records more : List CreatedNode} :
    ParentsFirst action root created (records ++ more) ↔
      ParentsFirst action root created records ∧
        ParentsFirst action root (created ++ records) more := by
  induction records generalizing created with
  | nil => simp [ParentsFirst]
  | cons record records ih => simp [ParentsFirst, ih, and_assoc]

theorem Linked.mono {created created' : List CreatedNode} {due : Due}
    (h : Linked action root created due) (hle : ∀ record ∈ created, record ∈ created') :
    Linked action root created' due :=
  h.imp_right fun ⟨parent, hparent, hlink⟩ => ⟨parent, hle parent hparent, hlink⟩

theorem linked_of_parentsFirst {created records : List CreatedNode}
    (h : ParentsFirst action root created records) :
    ∀ record ∈ records, Linked action root (created ++ records) record.toDue := by
  induction records generalizing created with
  | nil => exact List.forall_mem_nil _
  | cons record records ih =>
      refine List.forall_mem_cons.2 ⟨h.1.mono fun _ => List.mem_append_left _, ?_⟩
      have hrest := ih h.2
      rwa [List.append_assoc] at hrest

theorem parentsFirst_of_linked {created records : List CreatedNode}
    (h : ∀ record ∈ records, Linked action root created record.toDue) :
    ParentsFirst action root created records := by
  induction records generalizing created with
  | nil => trivial
  | cons record records ih =>
      obtain ⟨hfirst, hrest⟩ := List.forall_mem_cons.1 h
      refine ⟨hfirst, ih fun later hlater => (hrest later hlater).mono fun _ => ?_⟩
      exact List.mem_append_left _

end Records

section Payloads

variable {rules : TextRules} {known : Dict String String} {action : PlannedAction}
  {fields : Fields} {parentId : Option String} {key : String}

theorem lookup_nodeFields_of_notMem (h : key ∉ WORK_ITEM_TREE_NODE_FIELDS) :
    (nodeFields rules known action fields).lookup key = none := by
  have hkey : key ≠ "description" ∧ key ≠ "title" ∧
      key ∉ ["labelNames", "assigneeUsernames", "dueDate", "startDate", "status", "priority"] := by
    refine ⟨?_, ?_, ?_⟩
    · rintro rfl
      exact h (by decide)
    · rintro rfl
      exact h (by decide)
    · have hallowed : ∀ key ∈ ["labelNames", "assigneeUsernames", "dueDate", "startDate", "status",
          "priority"], key ∈ WORK_ITEM_TREE_NODE_FIELDS := by decide
      exact fun hmem => h (hallowed key hmem)
  unfold nodeFields
  dsimp only
  rw [lookup_normalizeNodePayload hkey.2.2, Dict.lookup_setDefault, List.lookup_cons,
    beq_eq_false_iff_ne.2 hkey.1, Dict.lookup_insert_of_ne hkey.2.1,
    lookup_filterPayload_of_notMem h]
  rfl

theorem lookup_withParent_of_ne {payload : Fields} (h : key ≠ "parentId") :
    (withParent payload parentId).lookup key = payload.lookup key := by
  unfold withParent
  split
  · split
    · rfl
    · exact Dict.lookup_insert_of_ne h
  · rfl

/-- The parent is sent if there is one. -/
theorem lookup_withParent {payload : Fields} (h : parentId ≠ some "")
    (hpayload : payload.lookup "parentId" = none) :
    (withParent payload parentId).lookup "parentId" = parentId.map Json.str := by
  unfold withParent
  split
  next id =>
    rw [if_neg fun hid => h (congrArg some hid)]
    exact Dict.lookup_insert_self _ _ _
  · exact hpayload

end Payloads

section DuePayloads

variable {rules : TextRules} {known : Dict String String} {action : PlannedAction} {due : Due}

theorem payload_eq {fields : Fields} (h : due.node = .obj fields) :
    due.payload rules known action =
      withParent (nodeFields rules known action fields) due.parentId := by
  unfold Due.payload
  rw [h]
  rfl

theorem lookup_payload_itemId (h : ∃ fields, due.node = .obj fields) :
    (due.payload rules known action).lookup "itemId" = none := by
  obtain ⟨fields, hnode⟩ := h
  rw [payload_eq hnode, lookup_withParent_of_ne (by decide),
    lookup_nodeFields_of_notMem (by decide)]

theorem lookup_payload_parentId (h : ∃ fields, due.node = .obj fields)
    (hparent : due.parentId ≠ some "") :
    (due.payload rules known action).lookup "parentId" = due.parentId.map Json.str := by
  obtain ⟨fields, hnode⟩ := h
  rw [payload_eq hnode]
  exact lookup_withParent hparent (lookup_nodeFields_of_notMem (by decide))

end DuePayloads

section Level

variable (rules : TextRules) (known : Dict String String) (action : PlannedAction)
  (configured : Bool) (projectId : String) (requester : Option String) (context : AgentContext)

theorem mapM_ok {α β γ ε : Type} {f : β → Except ε γ} {k : α → β} {g : α → γ} {xs : List α}
    (h : ∀ x ∈ xs, f (k x) = .ok (g x)) : (xs.map k).mapM f = .ok (xs.map g) := by
  induction xs with
  | nil => rfl
  | cons x xs ih =>
      obtain ⟨hfirst, hrest⟩ := List.forall_mem_cons.1 h
      rw [List.map_cons, List.mapM_cons, hfirst, ih hrest]
      rfl

theorem exists_map_of_perm {α β : Type} {f : α → β} {ys : List β} {xs : List α}
    (h : ys.Perm (xs.map f)) : ∃ zs : List α, zs.Perm xs ∧ ys = zs.map f := by
  have hcomp : Relation.Comp (· = List.map f ·) List.Perm ys xs := by
    rw [List.eq_map_comp_perm]
    exact h
  obtain ⟨zs, hmap, hperm⟩ := hcomp
  exact ⟨zs, hperm, hmap⟩

theorem exists_records {dues : List Due} {outputs : List Fields}
    (h : outputs.length = dues.length) :
    ∃ records : List CreatedNode,
      records.map CreatedNode.toDue = dues ∧ records.map CreatedNode.output = outputs := by
  induction dues generalizing outputs with
  | nil =>
      cases List.length_eq_zero_iff.1 h
      exact ⟨[], rfl, rfl⟩
  | cons due dues ih =>
      cases outputs with
      | nil => cases h
      | cons output outputs =>
          obtain ⟨records, hdues, houtputs⟩ := ih (Nat.succ.inj h)
          exact ⟨⟨due, output⟩ :: records, congrArg (due :: ·) hdues,
            congrArg (output :: ·) houtputs⟩

def localId (number : ℕ) : String := "local-" ++ action.actionId ++ "-" ++ toString number

theorem localId_ne (number : ℕ) : localId action number ≠ "" := by
  simp [localId]

theorem outputId_localOutput {workspaceId : String} {number : ℕ} {payload : Fields}
    (h : payload.lookup "itemId" = none) :
    outputId action (localOutput action projectId workspaceId number payload) =
      localId action number := by
  have hkeys : "itemId" ∉ Dict.keys payload := by
    intro hmem
    obtain ⟨entry, hentry, hkey⟩ := List.mem_map.1 hmem
    have hne := List.lookup_eq_none_iff.1 h entry hentry
    rw [bne_iff_ne] at hne
    exact hne hkey.symm
  have hlookup : (localOutput action projectId workspaceId number payload).lookup "itemId" =
      some (.str (localId action number)) := by
    unfold localOutput
    rw [Dict.lookup_merge_of_notMem hkeys]
    rfl
  have htruthy : truthyField (localOutput action projectId workspaceId number payload) "itemId" =
      some (.str (localId action number)) := by
    unfold truthyField
    rw [hlookup]
    have htrue : (Json.str (localId action number)).truthy = true :=
      decide_eq_true (localId_ne action number)
    rw [Option.filter_some, if_pos htrue]
  unfold outputId
  rw [htruthy]
  rfl

/-- What a level leads to: all that is due is created, by calls in some order or with local
ids. -/
structure Creation (dues : List Due) (start : ℕ) (log : List CreateCall)
    (records : List CreatedNode) (log' : List CreateCall) : Prop where
  dues : records.map CreatedNode.toDue = dues
  sent : configured = true → ∃ made : List CreatedNode, made.Perm records ∧
    log' = log ++ made.map (CreatedNode.call rules known action projectId requester) ∧
      FreshCalls log'
  unsent : configured = false → log' = log ∧
    records.map (CreatedNode.itemId action) =
      (List.range records.length).map fun i => localId action (start + i + 1)

variable {dues : List Due}

theorem wp_createLevel (hobj : ∀ due ∈ dues, ∃ fields, due.node = .obj fields) (start : ℕ)
    (log : List CreateCall) :
    (createLevel rules known action configured projectId requester context
      (dues.map Due.toPending) start).wp Creates
      (fun r log' => ∃ records, r = .ok (records.map (CreatedNode.itemId action)) ∧
        Creation rules known action configured projectId requester dues start log records log')
      log := by
  have hpayloads : (dues.map Due.toPending).mapM
      (fun due => nodePayload rules known action due.node due.parentId) =
        .ok (dues.map (Due.payload rules known action)) := by
    refine mapM_ok fun due hdue => ?_
    obtain ⟨fields, hnode⟩ := hobj due hdue
    unfold Due.payload Due.toPending
    dsimp only
    rw [hnode]
    rfl
  unfold createLevel
  rw [hpayloads]
  cases configured with
  | true =>
      change (Program.perform (TreeCall.createWorkItems projectId _) >>= fun outputs =>
        (Pure.pure (outputs.map (outputId action)) : TreeProgram (List String))).wp Creates _ log
      rw [Program.wp_bind, Program.wp_perform]
      rintro r log' hstep
      cases hstep with
      | done hlength hcalls hfresh =>
          rw [List.length_map, List.length_map] at hlength
          obtain ⟨records, rfl, rfl⟩ := exists_records hlength
          rw [List.map_map, List.map_map, List.zipWith_map_left, List.zipWith_map_right,
            List.zipWith_self] at hcalls
          obtain ⟨made, hmade, rfl⟩ := exists_map_of_perm hcalls
          refine ⟨records, congrArg Except.ok (List.map_map ..), rfl, fun _ => ?_, nofun⟩
          exact ⟨made, hmade, rfl, hfresh⟩
  | false =>
      have hlength : ((dues.map (Due.payload rules known action)).zipIdx.map fun entry =>
          localOutput action projectId context.workspaceId (start + entry.2 + 1) entry.1).length =
            dues.length := by
        rw [List.length_map, List.length_zipIdx, List.length_map]
      obtain ⟨records, rfl, houtputs⟩ := exists_records hlength
      refine ⟨records, ?_, rfl, nofun, fun _ => ⟨rfl, ?_⟩⟩
      · exact congrArg Except.ok ((congrArg (List.map (outputId action)) houtputs).symm.trans
          (List.map_map ..))
      · have hitemIds : records.map (CreatedNode.itemId action) =
            (records.map CreatedNode.output).map (outputId action) := (List.map_map ..).symm
        rw [hitemIds, houtputs, List.map_map]
        have hlocal : ∀ entry ∈ ((records.map CreatedNode.toDue).map
            (Due.payload rules known action)).zipIdx,
            outputId action (localOutput action projectId context.workspaceId
              (start + entry.2 + 1) entry.1) = localId action (start + entry.2 + 1) := by
          intro entry hentry
          obtain ⟨due, hdue, hpayload⟩ := List.mem_map.1 (List.fst_mem_of_mem_zipIdx hentry)
          refine outputId_localOutput action projectId ?_
          rw [← hpayload]
          exact lookup_payload_itemId (hobj due hdue)
        refine (List.map_congr_left hlocal).trans ?_
        have hnumbers := List.zipIdx_map_snd 0 ((records.map CreatedNode.toDue).map
          (Due.payload rules known action))
        rw [List.length_map, List.length_map, ← List.range_eq_range'] at hnumbers
        rw [← hnumbers]
        exact (List.map_map (f := Prod.snd)
          (g := fun i => localId action (start + i + 1))).symm

end Level

section Loop

variable (rules : TextRules) (known : Dict String String) (action : PlannedAction)
  (configured : Bool) (projectId : String) (requester : Option String) (root : Option String)

/-- What has been created, in the order of the output and in the order of the calls. -/
structure Built (records made : List CreatedNode) (log : List CreateCall) : Prop where
  perm : made.Perm records
  parentsFirst : ParentsFirst action root [] made
  named : ∀ record ∈ records, record.itemId action ≠ ""
  sent : configured = true →
    log = made.map (CreatedNode.call rules known action projectId requester) ∧ FreshCalls log
  unsent : configured = false → log = [] ∧ records.map (CreatedNode.itemId action) =
    (List.range records.length).map fun i => localId action (i + 1)

variable {rules known action configured projectId requester root}
variable {records made new : List CreatedNode} {dues : List Due} {log log' : List CreateCall}

theorem outputId_of_named {output : Fields}
    (h : ∃ itemId, answerId output = some itemId ∧ itemId ≠ "") :
    outputId action output ≠ "" ∧ answerId output = some (outputId action output) := by
  obtain ⟨itemId, hitemId, hne⟩ := h
  obtain ⟨value, hvalue, rfl⟩ := Option.map_eq_some_iff.1 hitemId
  unfold outputId
  rw [hvalue]
  exact ⟨hne, hitemId⟩

/-- A level that is created joins what has been built. -/
theorem Built.extend
    (h : Built rules known action configured projectId requester root records made log)
    (hlinked : ∀ due ∈ dues, Linked action root records due)
    (hnew : Creation rules known action configured projectId requester dues records.length log
      new log') :
    ∃ more, Built rules known action configured projectId requester root (records ++ new)
      (made ++ more) log' := by
  have hparents : ∀ more : List CreatedNode, more.Perm new →
      ParentsFirst action root [] (made ++ more) := by
    intro more hmore
    refine parentsFirst_append.2 ⟨h.parentsFirst, parentsFirst_of_linked fun record hrecord => ?_⟩
    have hdue : record.toDue ∈ dues := by
      rw [← hnew.dues]
      exact List.mem_map_of_mem (hmore.mem_iff.1 hrecord)
    exact (hlinked _ hdue).mono fun parent hparent => h.perm.mem_iff.2 hparent
  cases configured with
  | true =>
      obtain ⟨more, hmore, rfl, hfresh⟩ := hnew.sent rfl
      obtain ⟨rfl, -⟩ := h.sent rfl
      refine ⟨more, h.perm.append hmore, hparents more hmore, ?_, fun _ => ?_, nofun⟩
      · intro record hrecord
        rcases List.mem_append.1 hrecord with hrecord | hrecord
        · exact h.named record hrecord
        · refine (outputId_of_named (hfresh.named (record.call rules known action projectId
            requester) ?_)).1
          exact List.mem_append_right _ (List.mem_map_of_mem (hmore.mem_iff.2 hrecord))
      · rw [List.map_append]
        exact ⟨rfl, hfresh⟩
  | false =>
      obtain ⟨rfl, hids⟩ := hnew.unsent rfl
      obtain ⟨rfl, hids'⟩ := h.unsent rfl
      refine ⟨new, h.perm.append_right new, hparents new (List.Perm.refl new), ?_, nofun,
        fun _ => ⟨rfl, ?_⟩⟩
      · intro record hrecord
        rcases List.mem_append.1 hrecord with hrecord | hrecord
        · exact h.named record hrecord
        · have hmem := List.mem_map_of_mem (f := CreatedNode.itemId action) hrecord
          rw [hids] at hmem
          obtain ⟨i, -, hi⟩ := List.mem_map.1 hmem
          rw [← hi]
          exact localId_ne action _
      · rw [List.map_append, hids, hids', List.length_append, List.range_add, List.map_append,
          List.map_map]
        rfl

/-- The nodes below a created node, which are due next. -/
def CreatedNode.below (action : PlannedAction) (record : CreatedNode) : List Due :=
  (listedChildren record.node).zipIdx.map fun entry =>
    ⟨record.path ++ [entry.2], entry.1, some (record.itemId action)⟩

theorem key_below (record : CreatedNode) :
    (record.below action).map Due.key =
      Forest.numbered record.path (listedChildren record.node) := by
  unfold CreatedNode.below Forest.numbered
  rw [List.map_map]
  rfl

/-- Below a level that has been created is the next level. -/
theorem key_flatMap_below (records : List CreatedNode) :
    (records.flatMap (CreatedNode.below action)).map Due.key =
      Forest.below listedChildren (records.map fun record => record.key) := by
  unfold Forest.below
  rw [List.map_flatMap, List.flatMap_map]
  exact congrArg (List.flatMap · records) (funext key_below)

theorem linked_below {records new : List CreatedNode} (hle : ∀ record ∈ new, record ∈ records) :
    ∀ due ∈ new.flatMap (CreatedNode.below action), Linked action root records due := by
  intro due hdue
  obtain ⟨record, hrecord, hbelow⟩ := List.mem_flatMap.1 hdue
  obtain ⟨⟨child, i⟩, -, rfl⟩ := List.mem_map.1 hbelow
  exact Or.inr ⟨record, hle record hrecord, i, rfl, rfl⟩

theorem duesBelow_eq {record : CreatedNode} (htree : IsTreeNode record.node) :
    duesBelow record.toPending (record.itemId action) =
      .ok ((record.below action).map Due.toPending) := by
  obtain ⟨fields, hnode, hchildren⟩ := htree
  have hnodes : childNodes record.node = .ok (listedChildren record.node) := by
    rw [hnode]
    unfold childNodes listedChildren
    rcases hchildren with hnull | ⟨nodes, harr⟩
    · simp only [hnull]
      rfl
    · simp only [harr]
  unfold duesBelow CreatedNode.below Due.toPending
  dsimp only
  rw [hnodes, List.map_map]
  refine congrArg Except.ok ?_
  have hfst := List.zipIdx_map_fst 0 (listedChildren record.node)
  conv_lhs => rw [← hfst, List.map_map]
  refine List.map_congr_left fun entry _ => ?_
  simp [CreatedNode.itemId]

theorem createdEntry_eq {record : CreatedNode} (htree : IsTreeNode record.node) :
    createdEntry record.toPending (record.itemId action) = .ok (record.entry action) := by
  obtain ⟨fields, hnode, -⟩ := htree
  unfold createdEntry CreatedNode.entry Due.toPending
  dsimp only
  rw [hnode]
  rfl

theorem ofExcept_ok_bind {α β : Type} (a : α) (f : α → TreeProgram β) :
    (ofExcept (.ok a) >>= f) = f a := rfl

/-- One round of the loop: the level is created and what is below it is due next. -/
theorem wp_round (context : AgentContext) {left : ℕ}
    {Q : Except Exc (List Json) → List CreateCall → Prop}
    (hne : dues ≠ []) (hnode : ∀ due ∈ dues, IsTreeNode due.node)
    (hrest : ∀ new : List CreatedNode, new.map CreatedNode.toDue = dues → ∀ log',
      Creation rules known action configured projectId requester dues records.length log new log' →
      (createLevels rules known action configured projectId requester context left
        ((new.flatMap (CreatedNode.below action)).map Due.toPending)
        ((records ++ new).map (CreatedNode.entry action))).wp Creates Q log') :
    (createLevels rules known action configured projectId requester context (left + 1)
      (dues.map Due.toPending) (records.map (CreatedNode.entry action))).wp Creates Q log := by
  have hround : createLevels rules known action configured projectId requester context (left + 1)
      (dues.map Due.toPending) (records.map (CreatedNode.entry action)) = (do
        let itemIds ← createLevel rules known action configured projectId requester context
          (dues.map Due.toPending) records.length
        let pairs ← ofExcept (zipStrict (dues.map Due.toPending) itemIds)
        let entries ← ofExcept (pairs.mapM fun pair => createdEntry pair.1 pair.2)
        let next ← ofExcept (pairs.mapM fun pair => duesBelow pair.1 pair.2)
        createLevels rules known action configured projectId requester context left next.flatten
          (records.map (CreatedNode.entry action) ++ entries)) := by
    cases dues with
    | nil => exact absurd rfl hne
    | cons due dues =>
        have hlength : (records.map (CreatedNode.entry action)).length = records.length :=
          List.length_map _
        rw [← hlength]
        rfl
  rw [hround]
  have hobj : ∀ due ∈ dues, ∃ fields, due.node = .obj fields := by
    intro due hdue
    obtain ⟨fields, hfields, -⟩ := hnode due hdue
    exact ⟨fields, hfields⟩
  refine Program.wp_seq (P := fun itemIds log' => ∃ new : List CreatedNode,
    itemIds = new.map (CreatedNode.itemId action) ∧
      Creation rules known action configured projectId requester dues records.length log new log')
    (Program.wp_mono (wp_createLevel rules known action configured projectId requester context
      hobj records.length log) ?_) ?_
  · rintro r log' ⟨new, rfl, hnew⟩
    exact ⟨_, rfl, new, rfl, hnew⟩
  · rintro itemIds log' ⟨new, rfl, hnew⟩
    have hdues := hnew.dues
    have hzip : zipStrict (dues.map Due.toPending) (new.map (CreatedNode.itemId action)) =
        .ok (new.map fun record => (record.toPending, record.itemId action)) := by
      unfold zipStrict
      rw [← hdues, List.map_map, if_pos (by simp), List.zip_map']
      rfl
    have hnode' : ∀ record ∈ new, IsTreeNode record.node := by
      intro record hrecord
      refine hnode record.toDue ?_
      rw [← hdues]
      exact List.mem_map_of_mem hrecord
    have hentries : (new.map fun record => (record.toPending, record.itemId action)).mapM
        (fun pair => createdEntry pair.1 pair.2) = .ok (new.map (CreatedNode.entry action)) :=
      mapM_ok fun record hrecord => createdEntry_eq (hnode' record hrecord)
    have hbelow : (new.map fun record => (record.toPending, record.itemId action)).mapM
        (fun pair => duesBelow pair.1 pair.2) =
          .ok (new.map fun record => (record.below action).map Due.toPending) :=
      mapM_ok fun record hrecord => duesBelow_eq (hnode' record hrecord)
    rw [hzip, ofExcept_ok_bind, hentries, ofExcept_ok_bind, hbelow, ofExcept_ok_bind]
    have hnext := hrest new hdues log' hnew
    rw [List.map_append, List.map_flatMap] at hnext
    exact hnext

/-- The loop builds the rest of the forest, level by level. -/
theorem wp_createLevels {forest : List Json} {depth : ℕ}
    (hforest : ∀ p node, nodeAt listedChildren forest p = some node →
      p.length ≤ depth ∧ IsTreeNode node)
    (context : AgentContext) {done left : ℕ} (hdepth : done + left = depth)
    (hbuilt : Built rules known action configured projectId requester root records made log)
    (hrecords : records.map (fun record => record.key) = levels listedChildren forest done)
    (hdues : dues.map Due.key = level listedChildren forest done)
    (hlinked : ∀ due ∈ dues, Linked action root records due) :
    (createLevels rules known action configured projectId requester context left
      (dues.map Due.toPending) (records.map (CreatedNode.entry action))).wp Creates
      (fun r log' => ∃ records' made', r = .ok (records'.map (CreatedNode.entry action)) ∧
        Built rules known action configured projectId requester root records' made' log' ∧
        records'.map (fun record => record.key) = levels listedChildren forest depth) log := by
  induction left generalizing done records made dues log with
  | zero =>
      cases dues with
      | nil => exact ⟨records, made, rfl, hbuilt, by rw [hrecords, ← hdepth]; rfl⟩
      | cons due dues =>
          have hnil := @Forest.level_eq_nil _ listedChildren forest depth fun p hsome => by
              obtain ⟨node, hnode⟩ := Option.isSome_iff_exists.1 hsome
              exact (hforest p node hnode).1
          rw [← hdepth, Nat.add_zero, ← hdues] at hnil
          cases hnil
  | succ left ih =>
      cases hcases : dues with
      | nil =>
          rw [hcases] at hdues
          refine ⟨records, made, rfl, hbuilt, ?_⟩
          rw [hrecords, ← hdepth]
          exact (Forest.levels_eq_of_level_eq_nil hdues.symm _).2.symm
      | cons first rest =>
          rw [← hcases]
          have hnode : ∀ due ∈ dues, IsTreeNode due.node := by
            intro due hdue
            have hkey := List.mem_map_of_mem (f := Due.key) hdue
            rw [hdues] at hkey
            exact (hforest _ _ (Forest.mem_level.1 hkey).2).2
          refine wp_round context (hcases ▸ List.cons_ne_nil _ _) hnode fun new hdue log' hnew => ?_
          obtain ⟨more, hbuilt'⟩ := hbuilt.extend hlinked hnew
          have hkeys : new.map (fun record => record.key) = level listedChildren forest done := by
            rw [← hdues, ← hdue, List.map_map]
            rfl
          have hdepth' : done + 1 + left = depth := by omega
          refine ih hdepth' hbuilt' ?_ ?_ ?_
          · rw [List.map_append, hrecords, hkeys, Forest.levels_succ]
          · rw [key_flatMap_below, hkeys]
            rfl
          · exact linked_below fun _ => List.mem_append_right _

end Loop

section Trees

variable (rules : TextRules) (known : Dict String String) (action : PlannedAction)
  (configured : Bool) (projectId : String) (requester : Option String) (root : Option String)

/-- The tree is created: one record for each node, in level order, and one call for each record
or local ids. -/
structure CreatesTree (items : List Json) (result : ToolResult)
    (records made : List CreatedNode) (log : List CreateCall) : Prop where
  levelOrder : Forest.IsLevelOrder listedChildren items (records.map fun record => record.path)
  nodes : ∀ record ∈ records, ∃ fields fields',
    nodeAt listedChildren items record.path = some (.obj fields) ∧ record.node = .obj fields' ∧
      ∀ key, key ≠ "assigneeUsernames" → key ≠ "children" → fields'.lookup key = fields.lookup key
  listed : result.output.lookup "items" = some (.arr (records.map (CreatedNode.entry action)))
  count : result.output.lookup "createdCount" = some (.int records.length)
  perm : made.Perm records
  parentsFirst : ParentsFirst action root [] made
  parentIds : ∀ record ∈ records,
    (record.call rules known action projectId requester).payload.lookup "parentId" =
      record.parentId.map Json.str
  distinct : (records.map (CreatedNode.itemId action)).Nodup
  sent : configured = true →
    log = made.map (CreatedNode.call rules known action projectId requester) ∧
      ∀ record ∈ records, answerId record.output = some (record.itemId action)
  unsent : configured = false → log = [] ∧ records.map (CreatedNode.itemId action) =
    (List.range records.length).map fun i => localId action (i + 1)

variable {rules known action configured projectId requester root}
variable {records made : List CreatedNode} {log : List CreateCall}

theorem localId_injective : Function.Injective (localId action) := by
  intro m n h
  have hlist := congrArg String.toList h
  simp only [localId, String.toList_append, List.append_assoc, List.append_cancel_left_eq] at hlist
  exact Joined.toString_inj (String.toList_injective hlist)

theorem validUuidOrNone_ne (value : Json) : validUuidOrNone value ≠ some "" := by
  have hprint : ∀ n, Uuid.print n ≠ "" := by
    intro n h
    have hlist := congrArg String.toList h
    simp [Uuid.print] at hlist
  intro h
  unfold validUuidOrNone parseUuid at h
  split at h
  · cases h
  · dsimp only at h
    split at h
    · obtain ⟨n, -, hn⟩ := Option.map_eq_some_iff.1 h
      exact hprint n hn
    · cases h

theorem Built.parentId_ne
    (h : Built rules known action configured projectId requester root records made log)
    (hroot : root ≠ some "") {record : CreatedNode} (hrecord : record ∈ records) :
    record.parentId ≠ some "" := by
  have hlinked := linked_of_parentsFirst h.parentsFirst record (h.perm.mem_iff.2 hrecord)
  rcases hlinked with ⟨-, hparent⟩ | ⟨parent, hmem, -, -, hparent⟩
  · rw [hparent]
    exact hroot
  · rw [hparent]
    exact fun hempty => h.named parent (h.perm.mem_iff.1 hmem) (Option.some.inj hempty)

/-- Where there is a client, the ids are those of its answers. -/
theorem Built.answered
    (h : Built rules known action true projectId requester root records made log) :
    ∀ record ∈ records, answerId record.output = some (record.itemId action) := by
  intro record hrecord
  obtain ⟨rfl, hfresh⟩ := h.sent rfl
  exact (outputId_of_named (hfresh.named (record.call rules known action projectId requester)
    (List.mem_map_of_mem (h.perm.mem_iff.2 hrecord)))).2

theorem Built.distinct
    (h : Built rules known action configured projectId requester root records made log) :
    (records.map (CreatedNode.itemId action)).Nodup := by
  cases configured with
  | true =>
      have hdistinct := (h.sent rfl).2.distinct
      have hids : made.map (fun record => answerId record.output) =
          (made.map (CreatedNode.itemId action)).map some := by
        rw [List.map_map]
        exact List.map_congr_left fun record hrecord =>
          h.answered record (h.perm.mem_iff.1 hrecord)
      rw [(h.sent rfl).1, List.map_map] at hdistinct
      refine ((h.perm.map _).nodup_iff).1 (List.Nodup.of_map some ?_)
      rw [← hids]
      exact hdistinct
  | false =>
      rw [(h.unsent rfl).2]
      refine List.Nodup.map (fun i j hij => ?_) List.nodup_range
      exact Nat.succ.inj (localId_injective hij)

/-- The nodes of the rolled up forest are tree nodes that stand where those of the tree do. -/
theorem exists_of_rolled {items rolled : List Json} {levels : ℕ} (hshaped : Shaped levels items)
    (hrolled : List.Forall₂ (Rolls rules known) items rolled) {p : Path} {node' : Json}
    (hnode' : nodeAt listedChildren rolled p = some node') :
    ∃ node, nodeAt listedChildren items p = some node ∧ IsTreeNode node ∧
      Rolls rules known node node' := by
  have hrel := treeRolls_nodeAt hshaped hrolled p
  rw [hnode'] at hrel
  cases hnode : nodeAt listedChildren items p with
  | none =>
      rw [hnode] at hrel
      cases hrel
  | some node =>
      rw [hnode] at hrel
      cases hrel with
      | some h => exact ⟨node, rfl, (hshaped.of_nodeAt hnode).2, h.2⟩

theorem isLevelOrder_of_rolled {items rolled : List Json} {levels : ℕ}
    (hshaped : Shaped levels items) (hrolled : List.Forall₂ (Rolls rules known) items rolled)
    {paths : List Path} (h : Forest.IsLevelOrder listedChildren rolled paths) :
    Forest.IsLevelOrder listedChildren items paths where
  mem_iff p := by
    have hrel := treeRolls_nodeAt hshaped hrolled p
    rw [h.mem_iff]
    generalize nodeAt listedChildren items p = node at hrel
    generalize nodeAt listedChildren rolled p = node' at hrel
    cases hrel <;> rfl
  sorted := h.sorted

theorem built_nil : Built rules known action configured projectId requester root [] [] [] where
  perm := List.Perm.refl []
  parentsFirst := trivial
  named := List.forall_mem_nil _
  sent _ := ⟨rfl, List.forall_mem_nil _, List.nodup_nil⟩
  unsent _ := ⟨rfl, rfl⟩

/-- Creating the levels of a tree creates the tree. -/
theorem wp_tree {items rolled : List Json} {total : ℕ}
    (hwalk : walk MAX_WORK_ITEM_TREE_DEPTH items 0 = .ok total)
    (hrolled : List.Forall₂ (Rolls rules known) items rolled) (hroot : root ≠ some "")
    (context : AgentContext) (finish : List Json → ToolResult)
    (hfinish : ∀ created, (finish created).output.lookup "items" = some (.arr created) ∧
      (finish created).output.lookup "createdCount" = some (.int created.length)) :
    (createLevels rules known action configured projectId requester context
      MAX_WORK_ITEM_TREE_DEPTH (rolled.map fun node => ⟨node, root, 1⟩) []).wp Creates
      (fun r log => ∃ created, r = .ok created ∧ ∃ records made,
        created = records.map (CreatedNode.entry action) ∧
        (∀ record ∈ records, nodeAt listedChildren rolled record.path = some record.node) ∧
        CreatesTree rules known action configured projectId requester root items (finish created)
          records made log) [] := by
  have hshaped := shaped_of_walk hwalk
  have hforest : ∀ p node, nodeAt listedChildren rolled p = some node →
      p.length ≤ MAX_WORK_ITEM_TREE_DEPTH ∧ IsTreeNode node := by
    intro p node' hnode'
    obtain ⟨node, hnode, htree, hrolls⟩ := exists_of_rolled hshaped hrolled hnode'
    exact ⟨(hshaped.of_nodeAt hnode).1, (rolls_of_isTreeNode htree hrolls).2.1⟩
  let roots : List Due := rolled.zipIdx.map fun entry => ⟨[entry.2], entry.1, root⟩
  have hpending : rolled.map (fun node => (⟨node, root, 1⟩ : Pending)) =
      roots.map Due.toPending := by
    have hfst := List.zipIdx_map_fst 0 rolled
    conv_lhs => rw [← hfst, List.map_map]
    rw [List.map_map]
    rfl
  have hkeys : roots.map Due.key = level listedChildren rolled 0 := by
    rw [List.map_map]
    rfl
  have hlinked : ∀ due ∈ roots, Linked action root [] due := by
    intro due hdue
    obtain ⟨entry, -, rfl⟩ := List.mem_map.1 hdue
    exact Or.inl ⟨rfl, rfl⟩
  rw [hpending]
  refine Program.wp_mono (wp_createLevels hforest context (Nat.zero_add _) built_nil rfl hkeys
    hlinked) ?_
  rintro r log ⟨records, made, rfl, hbuilt, hrecords⟩
  have hpaths : records.map (fun record => record.path) =
      (levels listedChildren rolled MAX_WORK_ITEM_TREE_DEPTH).map Prod.fst := by
    rw [← hrecords, List.map_map]
    rfl
  have hrecordNode : ∀ record ∈ records,
      nodeAt listedChildren rolled record.path = some record.node := by
    intro record hrecord
    have hkey := List.mem_map_of_mem (f := fun record : CreatedNode => record.key) hrecord
    rw [hrecords] at hkey
    exact (Forest.mem_levels.1 hkey).2
  refine ⟨_, rfl, records, made, rfl, hrecordNode, ?_, fun record hrecord => ?_, (hfinish _).1, ?_,
    hbuilt.perm, hbuilt.parentsFirst, fun record hrecord => ?_, hbuilt.distinct, ?_, hbuilt.unsent⟩
  · rw [hpaths]
    refine isLevelOrder_of_rolled hshaped hrolled (Forest.levels_isLevelOrder fun p hsome => ?_)
    obtain ⟨node, hnode⟩ := Option.isSome_iff_exists.1 hsome
    exact (hforest p node hnode).1
  · obtain ⟨node, hnode, htree, hrolls⟩ :=
      exists_of_rolled hshaped hrolled (hrecordNode record hrecord)
    obtain ⟨⟨fields, fields', rfl, hfields', hlookup⟩, -⟩ := rolls_of_isTreeNode htree hrolls
    exact ⟨fields, fields', hnode, hfields', hlookup⟩
  · rw [(hfinish _).2, List.length_map]
  · obtain ⟨fields, hfields, -⟩ := (hforest _ _ (hrecordNode record hrecord)).2
    unfold CreatedNode.call
    dsimp only
    rw [lookup_withRequester (by decide)]
    exact lookup_payload_parentId ⟨fields, hfields⟩ (hbuilt.parentId_ne hroot hrecord)
  · intro hconfigured
    subst hconfigured
    exact ⟨(hbuilt.sent rfl).1, hbuilt.answered⟩

/-- Executing the tool refuses the input, or creates the rolled up tree and reports the names
that stand for nobody. -/
theorem wp_execute_tree (rules : TextRules) (loads : String → Option Json)
    (configured : Bool) (resultId : String) (action : PlannedAction) (context : AgentContext) :
    (execute rules loads configured resultId action context).wp Creates
      (fun r log => ∃ result, r = .ok result ∧
        ((result.success = false ∧ log = [] ∧
            validateWorkItemTree (coerceWorkItemTreeItems loads action.input) ≠ none) ∨
          ∃ items rolled records made, coerceWorkItemTreeItems loads action.input = some items ∧
            validateWorkItemTree (some items) = none ∧
            List.Forall₂ (Rolls rules (knownMemberUsernames rules context)) items rolled ∧
            (∀ record ∈ records, nodeAt listedChildren rolled record.path = some record.node) ∧
            result = treeResult resultId action
              (textField action.input "projectId" (context.projectId.getD ""))
              (collectUnresolvedAssignees rules (knownMemberUsernames rules context) items)
              (records.map (CreatedNode.entry action)) ∧
            CreatesTree rules (knownMemberUsernames rules context) action configured
              (textField action.input "projectId" (context.projectId.getD ""))
              (requestedByUserId action.input context)
              (validUuidOrNone ((action.input.lookup "parentId").getD .null)) items result
              records made log)) [] := by
  unfold execute
  cases hcoerced : coerceWorkItemTreeItems loads action.input with
  | none => exact ⟨_, rfl, Or.inl ⟨rfl, rfl, fun h => by cases h⟩⟩
  | some items =>
      dsimp only
      cases hvalid : validateWorkItemTree (some items) with
      | some error => exact ⟨_, rfl, Or.inl ⟨rfl, rfl, fun h => by cases h⟩⟩
      | none =>
          obtain ⟨total, hwalk⟩ := walk_of_valid hvalid
          obtain ⟨rolled, hrolled, hrolls⟩ := @rollup_forest rules
            (knownMemberUsernames rules context) _ _ (shaped_of_walk hwalk)
          have hroots : (rolled.map fun node =>
              (⟨node.1, validUuidOrNone ((action.input.lookup "parentId").getD .null), 1⟩ :
                Pending)) = (rolled.map Prod.fst).map fun node =>
              ⟨node, validUuidOrNone ((action.input.lookup "parentId").getD .null), 1⟩ := by
            rw [List.map_map]
            rfl
          dsimp only [Option.getD_some]
          rw [hrolled, ofExcept_ok_bind, hroots]
          refine Program.wp_seq (wp_tree hwalk hrolls (validUuidOrNone_ne _) context
            (treeResult resultId action (textField action.input "projectId"
              (context.projectId.getD "")) (collectUnresolvedAssignees rules
                (knownMemberUsernames rules context) items)) fun _ => ⟨rfl, rfl⟩) ?_
          rintro created log ⟨records, made, rfl, hnodes, htree⟩
          exact ⟨_, rfl, Or.inr ⟨items, _, records, made, rfl, hvalid, hrolls, hnodes, rfl, htree⟩⟩

end Trees

/-- The tree tool refuses exactly the trees that are not valid and creates nothing for them. Of
a valid tree it creates the whole: every node of the coerced tree once, after its parent and below
the id that its parent got, in whatever order the calls of a level are made. -/
theorem create_workitem_tree_all_or_nothing (rules : TextRules) (loads : String → Option Json)
    (configured : Bool) (resultId : String) (action : PlannedAction) (context : AgentContext) :
    (execute rules loads configured resultId action context).wp Creates
      (fun r log => ∃ result, r = .ok result ∧
        ((validateWorkItemTree (coerceWorkItemTreeItems loads action.input) ≠ none ∧
            result.success = false ∧ log = []) ∨
          (result.success = true ∧ ∃ items,
            coerceWorkItemTreeItems loads action.input = some items ∧
            validateWorkItemTree (some items) = none ∧ ∃ records made,
              CreatesTree rules (knownMemberUsernames rules context) action configured
                (textField action.input "projectId" (context.projectId.getD ""))
                (requestedByUserId action.input context)
                (validUuidOrNone ((action.input.lookup "parentId").getD .null)) items result
                records made log))) [] := by
  refine Program.wp_mono (wp_execute_tree rules loads configured resultId action context) ?_
  rintro r log ⟨result, rfl, ⟨hrefused, hempty, hinvalid⟩ |
    ⟨items, rolled, records, made, hcoerced, hvalid, -, -, rfl, htree⟩⟩
  · exact ⟨result, rfl, Or.inl ⟨hinvalid, hrefused, hempty⟩⟩
  · exact ⟨_, rfl, Or.inr ⟨rfl, items, hcoerced, hvalid, records, made, htree⟩⟩

end PrismAgent
