import PrismAgent.Backlog.Views
import PrismAgent.Effect.Cells
import PrismAgent.Effect.WeakestPrecondition

/-!
# Bulk updates and human work

A bulk update decides every update by the context's view of the item, which no PATCH of its
own refreshes. Its PATCHes spare human work if and only if the context shows the real
descriptions of the items it describes and no update repeats another.
-/

namespace PrismAgent

open Effect UpdateWorkItemsBulkTool

section Payloads

variable {rules : TextRules} {known : Dict String String} {update current payload : Fields}
  {key : String}

/-- The value of a field that an update carries; `null` counts as missing. -/
def carried (update : Fields) (key : String) : Option Json :=
  (filterPayload update BULK_UPDATE_FIELDS).lookup key

theorem lookup_popField_of_ne {field : String} (h : key ≠ field) :
    (popField payload field).1.lookup key = payload.lookup key :=
  Dict.lookup_erase_of_ne h

theorem lookup_dropField_self (field : String) (blocked : Bool) :
    (dropField payload field blocked).1.lookup field =
      if blocked then none else payload.lookup field := by
  unfold dropField
  cases hvalue : payload.lookup field <;> cases blocked <;> simp [hvalue, Dict.lookup_erase_self]

theorem lookup_dropField_of_ne {field : String} (h : key ≠ field) (blocked : Bool) :
    (dropField payload field blocked).1.lookup key = payload.lookup key := by
  unfold dropField
  split
  · exact Dict.lookup_erase_of_ne h
  · rfl

/-- A description is sent unless the context shows a real one. -/
theorem lookup_payloadFor_description :
    (payloadFor rules known update current).lookup "description" =
      if isReal (textField current "description" "") then none
      else carried update "description" := by
  unfold payloadFor dropProtectedFields
  rw [lookup_normalizeNodePayload (by decide)]
  dsimp only
  rw [lookup_dropField_of_ne (by decide), lookup_dropField_self, lookup_popField_of_ne (by decide),
    lookup_popField_of_ne (by decide)]
  rfl

/-- Assignees are sent if some are known, unless the context shows some. -/
theorem lookup_payloadFor_assignees :
    (payloadFor rules known update current).lookup "assigneeUsernames" =
      if (truthyField current "assigneeUsernames").isSome then none
      else (carried update "assigneeUsernames").bind (fixAssignees rules known) := by
  unfold payloadFor dropProtectedFields
  rw [lookup_normalizeNodePayload_assignees]
  dsimp only
  rw [lookup_dropField_self, lookup_dropField_of_ne (by decide), lookup_popField_of_ne (by decide),
    lookup_popField_of_ne (by decide)]
  split <;> rfl

/-- Assignees that are sent are some. -/
theorem truthy_fixAssignees {value fixed : Json} (h : fixAssignees rules known value = some fixed) :
    fixed.truthy = true := by
  unfold fixAssignees at h
  dsimp only at h
  split at h
  · cases h
  next hne =>
    cases h
    cases hcleaned : cleanUsernames rules known value with
    | nil => exact absurd hcleaned hne
    | cons username usernames => rfl

end Payloads

section Board

/-- A PATCH, and the item on the server that it meets. -/
structure Patch where
  payload : Fields
  current : Option Fields

/-- The PATCH describes no item with a real description and assigns no assigned one. -/
def Patch.SparesWork (patch : Patch) : Prop :=
  ∀ item, patch.current = some item →
    ¬((patch.payload.lookup "description").isSome = true ∧
      isReal (textField item "description" "") = true) ∧
    ¬((patch.payload.lookup "assigneeUsernames").isSome = true ∧
      (truthyField item "assigneeUsernames").isSome = true)

/-- The work items of the project, and the PATCHes that were made. -/
structure Board where
  items : List Fields
  patches : List Patch := []

/-- How the API patches an item: its id stays, and of the protected fields it takes what the
payload has. -/
structure Patches (patchItem : Fields → Fields → Fields) : Prop where
  itemId : ∀ item payload, (patchItem item payload).lookup "itemId" = item.lookup "itemId"
  field : ∀ item payload, ∀ key ∈ ["description", "assigneeUsernames"],
    (patchItem item payload).lookup key = (payload.lookup key).or (item.lookup key)

variable (patchItem : Fields → Fields → Fields)

namespace Board

/-- All PATCHes that were made spare human work. -/
def SparesWork (board : Board) : Prop := ∀ patch ∈ board.patches, patch.SparesWork

def item? (board : Board) (itemId : String) : Option Fields :=
  board.items.find? fun item => itemIdOf item = some itemId

/-- Make a PATCH. -/
def patch (board : Board) (request : String × Fields) : Board :=
  { items := board.items.map fun item =>
      if itemIdOf item = some request.1 then patchItem item request.2 else item
    patches := board.patches ++ [⟨request.2, board.item? request.1⟩] }

def sem : Semantics UpdateCall UpdateCall.Answer Exc Board
  | .updateWorkItem _ itemId payload, board =>
      let patched := board.patch patchItem (itemId, payload)
      (.ok ((patched.item? itemId).getD []), patched)

variable {patchItem} (h : Patches patchItem)
include h

theorem item?_patch (board : Board) (request : String × Fields) (itemId : String) :
    (board.patch patchItem request).item? itemId =
      (board.item? itemId).map fun item =>
        if itemId = request.1 then patchItem item request.2 else item := by
  have hid : ∀ item, itemIdOf (if itemIdOf item = some request.1 then patchItem item request.2
      else item) = itemIdOf item := by
    intro item
    split
    · unfold itemIdOf truthyField
      rw [h.itemId]
    · rfl
  unfold item? patch
  rw [List.find?_map]
  have hfound : ((fun item => decide (itemIdOf item = some itemId)) ∘ fun item =>
      if itemIdOf item = some request.1 then patchItem item request.2 else item) =
        fun item => decide (itemIdOf item = some itemId) := by
    funext item
    simp only [Function.comp_apply, hid]
  rw [hfound]
  refine Option.map_congr fun item hitem => ?_
  have hitemId : itemIdOf item = some itemId := by simpa using List.find?_some hitem
  simp only [hitemId, Option.some.injEq]

end Board

/-- A field that holds somebody's work in some items. -/
structure GuardedField where
  name : String
  mem : name ∈ ["description", "assigneeUsernames"]
  holdsWork : Fields → Bool
  holdsWork_congr : ∀ {item item' : Fields}, item.lookup name = item'.lookup name →
    holdsWork item = holdsWork item'

namespace GuardedField

def description : GuardedField where
  name := "description"
  mem := by decide
  holdsWork item := isReal (textField item "description" "")
  holdsWork_congr h := by simp only [textField, truthyField, h]

def assignees : GuardedField where
  name := "assigneeUsernames"
  mem := by decide
  holdsWork item := (truthyField item "assigneeUsernames").isSome
  holdsWork_congr h := by simp only [truthyField, h]

@[simp] theorem description_name : description.name = "description" := rfl

@[simp] theorem description_holdsWork (item : Fields) :
    description.holdsWork item = isReal (textField item "description" "") := by
  rw [description]

@[simp] theorem assignees_name : assignees.name = "assigneeUsernames" := rfl

@[simp] theorem assignees_holdsWork (item : Fields) :
    assignees.holdsWork item = (truthyField item "assigneeUsernames").isSome := rfl

variable (field : GuardedField)

/-- A PATCH makes of the field what it sends, if it sends it. -/
theorem holdsWork_patchItem {patchItem : Fields → Fields → Fields} (h : Patches patchItem)
    (item payload : Fields) :
    field.holdsWork (patchItem item payload) =
      if (payload.lookup field.name).isSome then field.holdsWork payload
      else field.holdsWork item := by
  have hlookup := h.field item payload field.name field.mem
  cases hvalue : payload.lookup field.name with
  | none =>
      rw [hvalue, Option.none_or] at hlookup
      exact field.holdsWork_congr hlookup
  | some value =>
      rw [hvalue, Option.some_or, ← hvalue] at hlookup
      exact field.holdsWork_congr hlookup

/-- The field of each item is a cell, occupied where it holds somebody's work. -/
def cells {patchItem : Fields → Fields → Fields} (h : Patches patchItem) :
    Cells Board (String × Fields) String where
  apply := Board.patch patchItem
  cell board request :=
    if (request.2.lookup field.name).isSome then (board.item? request.1).map fun _ => request.1
    else none
  occupied board itemId := ∃ item, board.item? itemId = some item ∧ field.holdsWork item = true
  occupies request := field.holdsWork request.2 = true
  cell_apply board request request' := by
    rw [Board.item?_patch h, Option.map_map]
    rfl
  occupied_apply board request itemId := by
    rw [Board.item?_patch h]
    cases hitem : board.item? itemId with
    | none =>
        simp only [Option.map_none, reduceCtorEq, false_and, exists_false, and_false, or_false,
          false_iff, not_and]
        intro hcell
        split at hcell
        · obtain ⟨item, hfound, rfl⟩ := Option.map_eq_some_iff.1 hcell
          cases hitem.symm.trans hfound
        · cases hcell
    | some item =>
        by_cases hsame : itemId = request.1
        · subst hsame
          simp only [Option.map_some, Option.some.injEq, exists_eq_left', if_true, hitem,
            field.holdsWork_patchItem h]
          split <;> simp
        · have hcell : (if (request.2.lookup field.name).isSome then
              (board.item? request.1).map fun _ => request.1 else none) ≠ some itemId := by
            split
            · rintro hcell
              obtain ⟨_, -, rfl⟩ := Option.map_eq_some_iff.1 hcell
              exact hsame rfl
            · exact nofun
          simp [hsame, hcell]

/-- The PATCH leaves the field alone where it holds somebody's work. -/
def Spared (patch : Patch) : Prop :=
  ∀ item, patch.current = some item →
    ¬((patch.payload.lookup field.name).isSome = true ∧ field.holdsWork item = true)

variable {patchItem : Fields → Fields → Fields} (h : Patches patchItem)

theorem clobbers_iff (board : Board) (request : String × Fields) :
    (field.cells h).Clobbers board request ↔
      ¬field.Spared ⟨request.2, board.item? request.1⟩ := by
  unfold Cells.Clobbers cells Spared
  dsimp only
  cases hitem : board.item? request.1 with
  | none => simp
  | some item =>
      cases hvalue : (request.2.lookup field.name).isSome with
      | false => simp only [Bool.false_eq_true, if_false, reduceCtorEq, false_and, exists_false,
          not_false_eq_true, implies_true, not_true_eq_false]
      | true => simp [hitem]

/-- The PATCHes of a sequence are spared exactly if the sequence spares the cells. -/
theorem spared_foldl_iff (requests : List (String × Fields)) (board : Board) :
    (∀ patch ∈ (requests.foldl (Board.patch patchItem) board).patches, field.Spared patch) ↔
      (∀ patch ∈ board.patches, field.Spared patch) ∧
        (field.cells h).Spares board requests := by
  induction requests generalizing board with
  | nil => exact (and_iff_left trivial).symm
  | cons request requests ih =>
      rw [List.foldl_cons, ih, Cells.Spares, clobbers_iff, not_not, ← and_assoc]
      refine and_congr_left fun _ => ?_
      change (∀ patch ∈ board.patches ++ [_], _) ↔ _
      rw [List.forall_mem_append, List.forall_mem_singleton]

end GuardedField

end Board

section Run

variable (rules : TextRules) (known : Dict String String) (index : Dict String Fields)
  (requester : Option String)

/-- The PATCH of an update, if it has one. -/
def requestOf (update : Fields) : Option (String × Fields) :=
  match decideUpdate rules known index update with
  | .skip _ => none
  | .patch itemId payload _ => some (itemId, withRequester payload requester)

variable {rules known index requester} (patchItem : Fields → Fields → Fields)

/-- The loop makes the PATCHes of the updates in order, if the client is configured. -/
theorem wp_applyUpdates (configured : Bool) (projectId : String) (updates : List Fields)
    (board : Board) :
    (applyUpdates rules known index configured projectId requester updates).wp
      (Board.sem patchItem).step
      (fun r after => ∃ result, r = .ok result ∧ after =
        if configured then
          (updates.filterMap (requestOf rules known index requester)).foldl
            (Board.patch patchItem) board
        else board) board := by
  induction updates generalizing board with
  | nil => exact ⟨_, rfl, by split <;> rfl⟩
  | cons update updates ih =>
      unfold applyUpdates
      rw [List.filterMap_cons]
      unfold requestOf
      cases hdecision : decideUpdate rules known index update with
      | skip entry => exact Program.wp_seq (ih board) fun _ _ hafter => ⟨_, rfl, hafter⟩
      | patch itemId payload dropped =>
          cases configured with
          | true =>
              refine (Program.wp_bind _ _ _ _).2 ((Program.wp_perform_step _ _ _ _).2 ?_)
              exact Program.wp_seq (ih _) fun _ _ hafter => ⟨_, rfl, hafter⟩
          | false => exact Program.wp_seq (ih board) fun _ _ hafter => ⟨_, rfl, hafter⟩

/-- A request goes to the update's item with the payload for it. -/
theorem requestOf_eq_some {update : Fields} {request : String × Fields}
    (h : requestOf rules known index requester update = some request) :
    ∃ view, target index update = .ok (request.1, view) ∧
      ∀ key, key ≠ "requestedByUserId" →
        request.2.lookup key = (payloadFor rules known update view).lookup key := by
  unfold requestOf decideUpdate at h
  cases htarget : target index update with
  | error entry =>
      rw [htarget] at h
      cases h
  | ok found =>
      obtain ⟨itemId, view⟩ := found
      rw [htarget] at h
      dsimp only at h
      split at h
      · cases h
      next hdecision =>
        split at hdecision
        · cases hdecision
        · cases hdecision
          cases h
          exact ⟨view, rfl, fun key hkey => lookup_withRequester hkey⟩

/-- An update with something to send makes a request. -/
theorem requestOf_isSome {update view : Fields} {itemId key : String}
    (htarget : target index update = .ok (itemId, view))
    (hvalue : ((payloadFor rules known update view).lookup key).isSome = true) :
    ∃ request, requestOf rules known index requester update = some request := by
  have hne : (payloadFor rules known update view).isEmpty = false := by
    cases hpayload : payloadFor rules known update view with
    | nil =>
        rw [hpayload] at hvalue
        cases hvalue
    | cons entry payload => rfl
  unfold requestOf decideUpdate
  rw [htarget]
  dsimp only
  rw [hne]
  exact ⟨_, rfl⟩

end Run

section Condition

variable {rules : TextRules} {known : Dict String String} {requester : Option String}
  {patchItem : Fields → Fields → Fields} {api : ContextApi} {event : RuntimeEvent}
  {keys : List String} {items : List Fields} {entities : Fields}

/-- The update is for this item, which may be changed. -/
def Targets (entities update item : Fields) : Prop :=
  ∃ itemId view, target (contextItemIndex entities) update = .ok (itemId, view) ∧
    itemIdOf item = some itemId

theorem target_lookup {index : Dict String Fields} {update view : Fields} {itemId : String}
    (h : target index update = .ok (itemId, view)) : index.lookup itemId = some view := by
  unfold target at h
  dsimp only at h
  split at h
  · cases h
  · split at h
    · cases h
    next found hfound =>
      split at h
      · cases h
        exact hfound
      · cases h

theorem HydratedFrom.item?_eq_some_iff (h : HydratedFrom api event keys items entities)
    {itemId : String} {item : Fields} :
    (Board.mk items []).item? itemId = some item ↔
      item ∈ items ∧ itemIdOf item = some itemId := by
  unfold Board.item?
  constructor
  · intro hfind
    exact ⟨List.mem_of_find?_eq_some hfind, by simpa using List.find?_some hfind⟩
  · rintro ⟨hmem, hid⟩
    cases hfind : items.find? fun item => decide (itemIdOf item = some itemId) with
    | none => exact absurd hid (by simpa using List.find?_eq_none.1 hfind item hmem)
    | some found =>
        have hfound : itemIdOf found = some itemId := by simpa using List.find?_some hfind
        rw [h.distinct found (List.mem_of_find?_eq_some hfind) item hmem itemId hfound hid]

namespace GuardedField

/-- What decides whether the field is sent: what the update offers, what is shown of the item,
and whether the offer is work itself. -/
structure Decides (field : GuardedField) (rules : TextRules) (known : Dict String String)
    (items : List Fields) (entities : Fields) (offers keeps shown : Fields → Prop) : Prop where
  sends : ∀ update view itemId, ∀ item ∈ items,
    target (contextItemIndex entities) update = .ok (itemId, view) →
    itemIdOf item = some itemId →
    (((payloadFor rules known update view).lookup field.name).isSome = true ↔
      offers update ∧ ¬shown item)
  holds : ∀ update view,
    ((payloadFor rules known update view).lookup field.name).isSome = true →
    (field.holdsWork (payloadFor rules known update view) = true ↔ keeps update)

variable {field : GuardedField} {offers keeps shown : Fields → Prop}

theorem name_ne_requester (field : GuardedField) : field.name ≠ "requestedByUserId" := by
  intro hname
  have hmem := field.mem
  rw [hname] at hmem
  revert hmem
  decide

theorem isSome_of_cell {hp : Patches patchItem} {board : Board} {request : String × Fields}
    {itemId : String} (h : (field.cells hp).cell board request = some itemId) :
    (request.2.lookup field.name).isSome = true := by
  unfold cells at h
  dsimp only at h
  split at h
  · assumption
  · cases h

namespace Decides

variable (hd : field.Decides rules known items entities offers keeps shown)
  (hp : Patches patchItem)
include hd

/-- A request writes the field of the items that its update is for, offers a value for and is
not shown to be taken. -/
theorem cell_iff (h : HydratedFrom api event keys items entities) {update : Fields}
    {request : String × Fields}
    (hrequest : requestOf rules known (contextItemIndex entities) requester update = some request)
    {itemId : String} :
    (field.cells hp).cell ⟨items, []⟩ request = some itemId ↔
      ∃ item ∈ items, itemIdOf item = some itemId ∧ Targets entities update item ∧
        offers update ∧ ¬shown item := by
  obtain ⟨view, htarget, hlookup⟩ := requestOf_eq_some hrequest
  have hvalue := hlookup field.name field.name_ne_requester
  constructor
  · intro hcell
    unfold cells at hcell
    dsimp only at hcell
    split at hcell
    next hsome =>
      obtain ⟨item, hitem, rfl⟩ := Option.map_eq_some_iff.1 hcell
      obtain ⟨hmem, hid⟩ := h.item?_eq_some_iff.1 hitem
      rw [hvalue] at hsome
      exact ⟨item, hmem, hid, ⟨_, view, htarget, hid⟩,
        (hd.sends update view _ item hmem htarget hid).1 hsome⟩
    · cases hcell
  · rintro ⟨item, hmem, hid, ⟨itemId', view', htarget', hid'⟩, hoffers⟩
    cases htarget.symm.trans htarget'
    cases hid.symm.trans hid'
    have hsome := (hd.sends update view _ item hmem htarget hid).2 hoffers
    unfold cells
    dsimp only
    rw [hvalue, if_pos hsome, h.item?_eq_some_iff.2 ⟨hmem, hid⟩]
    rfl

theorem exists_request (requester : Option String) {update item : Fields} (hmem : item ∈ items)
    (htarget : Targets entities update item) (hoffers : offers update) (hshown : ¬shown item) :
    ∃ request, requestOf rules known (contextItemIndex entities) requester update =
      some request := by
  obtain ⟨itemId, view, htarget, hid⟩ := htarget
  exact requestOf_isSome htarget
    ((hd.sends update view itemId item hmem htarget hid).2 ⟨hoffers, hshown⟩)

theorem holdsWork_iff {update : Fields} {request : String × Fields}
    (hrequest : requestOf rules known (contextItemIndex entities) requester update = some request)
    (hsome : (request.2.lookup field.name).isSome = true) :
    field.holdsWork request.2 = true ↔ keeps update := by
  obtain ⟨view, -, hlookup⟩ := requestOf_eq_some hrequest
  have hvalue := hlookup field.name field.name_ne_requester
  rw [hvalue] at hsome
  rw [field.holdsWork_congr hvalue]
  exact hd.holds update view hsome

/-- The requests of the updates spare the field if and only if the work they would overwrite is
shown, and no two of them both write it and leave work there first. -/
theorem spares_iff (h : HydratedFrom api event keys items entities) (updates : List Fields) :
    (field.cells hp).Spares ⟨items, []⟩
        (updates.filterMap (requestOf rules known (contextItemIndex entities) requester)) ↔
      (∀ update ∈ updates, ∀ item ∈ items, Targets entities update item → offers update →
        field.holdsWork item = true → shown item) ∧
      updates.Pairwise fun update update' => ∀ item ∈ items, Targets entities update item →
        Targets entities update' item → offers update → offers update' → keeps update →
          shown item := by
  rw [Cells.spares_iff, List.pairwise_filterMap]
  refine and_congr ⟨?_, ?_⟩ (List.Pairwise.iff fun update update' => ⟨?_, ?_⟩)
  · intro hspared update hupdate item hmem htarget hoffers hwork
    by_contra hshown
    obtain ⟨request, hrequest⟩ := hd.exists_request requester hmem htarget hoffers hshown
    obtain ⟨itemId, -, -, hid⟩ := id htarget
    exact hspared request (List.mem_filterMap.2 ⟨update, hupdate, hrequest⟩)
      ⟨itemId, (hd.cell_iff hp h hrequest).2 ⟨item, hmem, hid, htarget, hoffers, hshown⟩,
        item, h.item?_eq_some_iff.2 ⟨hmem, hid⟩, hwork⟩
  · rintro hshows request hrequest ⟨itemId, hcell, item, hitem, hwork⟩
    obtain ⟨update, hupdate, hrequest⟩ := List.mem_filterMap.1 hrequest
    obtain ⟨item', hmem', hid', htarget, hoffers, hshown⟩ := (hd.cell_iff hp h hrequest).1 hcell
    obtain ⟨hmem, hid⟩ := h.item?_eq_some_iff.1 hitem
    rw [h.distinct item hmem item' hmem' itemId hid hid'] at hwork
    exact hshown (hshows update hupdate item' hmem' htarget hoffers hwork)
  · intro hspared item hmem htarget htarget' hoffers hoffers' hkeeps
    by_contra hshown
    obtain ⟨request, hrequest⟩ := hd.exists_request requester hmem htarget hoffers hshown
    obtain ⟨request', hrequest'⟩ := hd.exists_request requester hmem htarget' hoffers' hshown
    obtain ⟨itemId, -, -, hid⟩ := id htarget
    have hcell := (hd.cell_iff hp h hrequest).2 ⟨item, hmem, hid, htarget, hoffers, hshown⟩
    have hcell' := (hd.cell_iff hp h hrequest').2 ⟨item, hmem, hid, htarget', hoffers', hshown⟩
    exact hspared request hrequest request' hrequest' itemId hcell hcell'
      ((hd.holdsWork_iff hrequest (isSome_of_cell hcell)).2 hkeeps)
  · intro hshows request hrequest request' hrequest' itemId hcell hcell' hoccupies
    obtain ⟨item, hmem, hid, htarget, hoffers, hshown⟩ := (hd.cell_iff hp h hrequest).1 hcell
    obtain ⟨item', hmem', hid', htarget', hoffers', -⟩ := (hd.cell_iff hp h hrequest').1 hcell'
    cases h.distinct item hmem item' hmem' itemId hid hid'
    exact hshown (hshows item hmem htarget htarget' hoffers hoffers'
      ((hd.holdsWork_iff hrequest (isSome_of_cell hcell)).1 hoccupies))

end Decides

theorem decides_description (h : HydratedFrom api event keys items entities) :
    description.Decides rules known items entities
      (fun update => (carried update "description").isSome = true)
      (fun update => isReal
        (textField (filterPayload update BULK_UPDATE_FIELDS) "description" "") = true)
      (ShowsWork entities) where
  sends update view itemId item hmem htarget hid := by
    obtain ⟨item', hmem', hid', hshows, -⟩ := h.exists_item_of_view (target_lookup htarget)
    cases h.distinct item hmem item' hmem' itemId hid hid'
    rw [description_name, lookup_payloadFor_description, ← hshows]
    split <;> simp_all
  holds update view hsome := by
    have hlookup : (payloadFor rules known update view).lookup "description" =
        (filterPayload update BULK_UPDATE_FIELDS).lookup "description" := by
      rw [description_name, lookup_payloadFor_description] at hsome
      rw [lookup_payloadFor_description]
      split at hsome
      · cases hsome
      next hreal => rw [if_neg hreal, carried]
    rw [description.holdsWork_congr hlookup, description_holdsWork]

theorem decides_assignees (h : HydratedFrom api event keys items entities) :
    assignees.Decides rules known items entities
      (fun update =>
        ((carried update "assigneeUsernames").bind (fixAssignees rules known)).isSome = true)
      (fun _ => True)
      (fun item => (truthyField item "assigneeUsernames").isSome = true) where
  sends update view itemId item hmem htarget hid := by
    obtain ⟨item', hmem', hid', -, hassignees⟩ := h.exists_item_of_view (target_lookup htarget)
    cases h.distinct item hmem item' hmem' itemId hid hid'
    rw [assignees_name, lookup_payloadFor_assignees, hassignees]
    split <;> simp_all
  holds update view hsome := by
    refine iff_of_true ?_ trivial
    rw [assignees_name] at hsome
    obtain ⟨value, hvalue⟩ := Option.isSome_iff_exists.1 hsome
    rw [assignees_holdsWork]
    unfold truthyField
    rw [hvalue]
    rw [lookup_payloadFor_assignees] at hvalue
    split at hvalue
    · cases hvalue
    · obtain ⟨given, -, hfixed⟩ := Option.bind_eq_some_iff.1 hvalue
      rw [Option.filter_some, if_pos (truthy_fixAssignees hfixed)]
      rfl

end GuardedField

/-- No update overwrites work that the context does not show, and no two updates both describe
an item, with a real description first, or both assign one that is not assigned. -/
structure LeavesWork (rules : TextRules) (known : Dict String String) (items : List Fields)
    (entities : Fields) (updates : List Fields) : Prop where
  shown : ∀ update ∈ updates, ∀ item ∈ items, Targets entities update item →
    (carried update "description").isSome = true →
      isReal (textField item "description" "") = true → ShowsWork entities item
  described : updates.Pairwise fun update update' => ∀ item ∈ items,
    Targets entities update item → Targets entities update' item →
      (carried update "description").isSome = true →
      (carried update' "description").isSome = true →
        isReal (textField (filterPayload update BULK_UPDATE_FIELDS) "description" "") = true →
          ShowsWork entities item
  assigned : updates.Pairwise fun update update' => ∀ item ∈ items,
    Targets entities update item → Targets entities update' item →
      ((carried update "assigneeUsernames").bind (fixAssignees rules known)).isSome = true →
      ((carried update' "assigneeUsernames").bind (fixAssignees rules known)).isSome = true →
        (truthyField item "assigneeUsernames").isSome = true

end Condition

/-- The updates of an action, none if they are not accepted. -/
def updatesOf (loads : String → Option Json) (input : Fields) : List Fields :=
  (acceptedUpdates loads input).toOption.getD []

theorem wp_execute (patchItem : Fields → Fields → Fields) (rules : TextRules)
    (loads : String → Option Json) (configured : Bool) (resultId : String)
    (action : PlannedAction) (context : AgentContext) (board : Board) :
    (execute rules loads configured resultId action context).wp (Board.sem patchItem).step
      (fun _ after => after =
        if configured then
          ((updatesOf loads action.input).filterMap (requestOf rules
            (knownMemberUsernames rules context) (contextItemIndex context.entities)
            (requestedByUserId action.input context))).foldl (Board.patch patchItem) board
        else board) board := by
  unfold execute updatesOf
  cases acceptedUpdates loads action.input with
  | error error => exact (ite_self board).symm
  | ok updates =>
      exact Program.wp_seq (wp_applyUpdates patchItem configured _ updates board)
        fun _ _ hafter => hafter

/-- The PATCHes of an action spare human work if and only if its updates leave work alone that
the context does not show, or nothing is sent. -/
theorem bulk_updates_spare_work_iff {patchItem : Fields → Fields → Fields}
    (hpatch : Patches patchItem) {api : ContextApi} {event : RuntimeEvent} {keys : List String}
    {items : List Fields} {entities : Fields}
    (hydrated : HydratedFrom api event keys items entities) (rules : TextRules)
    (loads : String → Option Json) (configured : Bool) (resultId : String)
    (action : PlannedAction) (context : AgentContext) (hcontext : context.entities = entities) :
    ((Board.sem patchItem).exec
        (execute rules loads configured resultId action context) ⟨items, []⟩).2.SparesWork ↔
    (configured = true → LeavesWork rules (knownMemberUsernames rules context) items entities
      (updatesOf loads action.input)) := by
  have hspares : ∀ patch : Patch, patch.SparesWork ↔
      GuardedField.description.Spared patch ∧ GuardedField.assignees.Spared patch := by
    intro patch
    unfold Patch.SparesWork GuardedField.Spared
    rw [← forall₂_and]
    simp only [GuardedField.description_name, GuardedField.description_holdsWork,
      GuardedField.assignees_name, GuardedField.assignees_holdsWork]
  have hrun := (Program.wp_step_iff _ _ _ _).1
    (wp_execute patchItem rules loads configured resultId action context ⟨items, []⟩)
  rw [hcontext] at hrun
  rw [hrun, Board.SparesWork]
  cases configured with
  | false => simp
  | true =>
      have hdescription := GuardedField.description.spared_foldl_iff hpatch
        ((updatesOf loads action.input).filterMap (requestOf rules
          (knownMemberUsernames rules context) (contextItemIndex entities)
          (requestedByUserId action.input context))) ⟨items, []⟩
      have hassignees := GuardedField.assignees.spared_foldl_iff hpatch
        ((updatesOf loads action.input).filterMap (requestOf rules
          (knownMemberUsernames rules context) (contextItemIndex entities)
          (requestedByUserId action.input context))) ⟨items, []⟩
      rw [if_pos rfl, forall_prop_of_true rfl]
      simp only [hspares, forall_and]
      rw [hdescription, hassignees]
      rw [(GuardedField.decides_description hydrated).spares_iff hpatch
        hydrated, (GuardedField.decides_assignees hydrated).spares_iff hpatch hydrated]
      simp only [GuardedField.description_holdsWork, GuardedField.assignees_holdsWork]
      constructor
      · rintro ⟨⟨-, hshown, hdescribed⟩, -, -, hassigned⟩
        exact ⟨hshown, hdescribed, hassigned.imp fun hpair item hmem htarget htarget' hoffers
          hoffers' => hpair item hmem htarget htarget' hoffers hoffers' trivial⟩
      · rintro ⟨hshown, hdescribed, hassigned⟩
        exact ⟨⟨List.forall_mem_nil _, hshown, hdescribed⟩, List.forall_mem_nil _,
          fun _ _ _ _ _ _ hwork => hwork, hassigned.imp fun hpair item hmem htarget htarget'
            hoffers hoffers' _ => hpair item hmem htarget htarget' hoffers hoffers'⟩

section Sample

/-- The payload filled up with what else the item has. -/
def mergeItem (item payload : Fields) : Fields :=
  item.foldl (fun acc entry => Dict.setDefault acc entry.1 entry.2) (Dict.erase payload "itemId")

theorem mergeItem_patches : Patches mergeItem where
  itemId item payload := by
    unfold mergeItem
    rw [Dict.lookup_foldl_setDefault, Dict.lookup_erase_self]
    rfl
  field item payload key hkey := by
    have hne : key ≠ "itemId" := by
      rintro rfl
      revert hkey
      decide
    unfold mergeItem
    rw [Dict.lookup_foldl_setDefault, Dict.lookup_erase_of_ne hne]

/-- An open item with a description. -/
def openItem (description : String) : Fields :=
  [("itemId", .str "00000000-0000-0000-0000-000000000001"), ("title", .str "Sign in"),
    ("status", .str "todo"), ("description", .str description)]

def boardApi (item : Fields) : ContextApi :=
  { unconfiguredApi with
    configured := true
    searchWorkItems := fun _ _ => .ok [("items", .arr [.obj item])] }

def boardEvent : RuntimeEvent :=
  { eventId := "event", eventType := "backlog.loop", kind := .domain, workspaceId := "w",
    projectId := some "p", idempotencyKey := "i" }

/-- The context of a project with one item, of which it shows the slim view. -/
def boardContext (item : Fields) : AgentContext :=
  { workspaceId := "w", projectId := some "p", sourceEvent := .wrap boardEvent,
    workflowId := "backlog",
    entities := [("project_work_items", .arr [.obj (slimWorkItem item)])] }

theorem boardContext_hydrated (item : Fields) :
    HydratedFrom (boardApi item) boardEvent ["project_work_items"] [item]
      (boardContext item).entities where
  fetched := rfl
  unlisted _ _ := rfl
  served := by
    rintro projectId query result fetched - hresult hfetched item' hitem'
    cases hresult
    cases hfetched
    cases List.mem_singleton.1 hitem'
    exact List.mem_singleton_self _
  distinct := by
    intro item' hitem' item'' hitem'' _ _ _
    rw [List.mem_singleton.1 hitem', List.mem_singleton.1 hitem'']

/-- An action that describes the item. -/
def describeAction : PlannedAction :=
  { actionId := "a", planId := "plan", actionType := "mutation",
    toolName := "update_workitems_bulk", instruction := "", idempotencyKey := "k",
    input := [("updates", .arr [.obj [
      ("itemId", .str "00000000-0000-0000-0000-000000000001"),
      ("description", .str "Let members sign in with a link.")]])] }

def asciiRules : TextRules := { lower := String.toLower, isDecimal := Char.isDigit }

/-- A description is filled in where there is none. -/
theorem bulk_update_fills_in :
    ((Board.sem mergeItem).exec
        (execute asciiRules (fun _ => none) true "result" describeAction
          (boardContext (openItem ""))) ⟨[openItem ""], []⟩).2.SparesWork := by
  refine (bulk_updates_spare_work_iff mergeItem_patches (boardContext_hydrated (openItem ""))
    asciiRules (fun _ => none) true "result" describeAction (boardContext (openItem "")) rfl).2
    fun _ => ⟨?_, ?_, ?_⟩
  · intro update _ item hitem _ _ hreal
    cases List.mem_singleton.1 hitem
    exact absurd hreal (by decide)
  · exact List.pairwise_singleton _ _
  · exact List.pairwise_singleton _ _

def realDescription : String := "Sign in with a passkey, as the security team asked."

/-- A real description is overwritten where the context holds the slim view only. -/
theorem slim_view_overwritten :
    ¬∀ (patchItem : Fields → Fields → Fields) (api : ContextApi) (event : RuntimeEvent)
        (keys : List String) (items : List Fields) (entities : Fields) (rules : TextRules)
        (loads : String → Option Json) (configured : Bool) (resultId : String)
        (action : PlannedAction) (context : AgentContext),
      Patches patchItem → HydratedFrom api event keys items entities →
        context.entities = entities →
          ((Board.sem patchItem).exec
            (execute rules loads configured resultId action context) ⟨items, []⟩).2.SparesWork := by
  intro hspares
  have hpatches : ((Board.sem mergeItem).exec
      (execute asciiRules (fun _ => none) true "result" describeAction
        (boardContext (openItem realDescription))) ⟨[openItem realDescription], []⟩).2.patches =
      [⟨[("description", .str "Let members sign in with a link.")],
        some (openItem realDescription)⟩] := by
    rfl
  have hpatch := hspares mergeItem (boardApi (openItem realDescription)) boardEvent
    ["project_work_items"] [openItem realDescription]
    (boardContext (openItem realDescription)).entities
    asciiRules (fun _ => none) true "result" describeAction
    (boardContext (openItem realDescription))
    mergeItem_patches (boardContext_hydrated _) rfl _
    (by rw [hpatches]; exact List.mem_singleton_self _)
  exact (hpatch _ rfl).1 (by decide)

end Sample

end PrismAgent
