import Mathlib.Data.String.Basic
import PrismAgent.Dictionary.Sorted
import PrismAgent.JsonText.Accepted

/-!
# Values with sorted keys

What `json.dumps(value, sort_keys=True)` writes is the value whose objects list their fields in
the order of the names. Sorting is idempotent, and a proper value stays proper.
-/

namespace PrismAgent

open JsonText

namespace Json

mutual

def sortKeys : Json → Json
  | .arr items => .arr (sortItems items)
  | .obj fields => .obj (Dict.byKey (sortFields fields))
  | v => v

def sortItems : List Json → List Json
  | [] => []
  | item :: items => sortKeys item :: sortItems items

/-- The fields in their old order, with sorted values. -/
def sortFields : List (String × Json) → List (String × Json)
  | [] => []
  | (name, value) :: fields => (name, sortKeys value) :: sortFields fields

end

theorem sortItems_eq (items : List Json) : sortItems items = items.map sortKeys := by
  induction items with
  | nil => rfl
  | cons item items ih => rw [sortItems, ih, List.map_cons]

theorem sortFields_eq (fields : List (String × Json)) :
    sortFields fields = fields.map fun field => (field.1, field.2.sortKeys) := by
  induction fields with
  | nil => rfl
  | cons field fields ih =>
      obtain ⟨name, value⟩ := field
      rw [sortFields, ih, List.map_cons]

end Json

/-- The fields in the order of their names, with sorted values. -/
def sortedFields (fields : Fields) : Fields :=
  Dict.byKey (fields.map fun field => (field.1, field.2.sortKeys))

namespace Json

@[simp] theorem sortKeys_obj (fields : Fields) :
    (Json.obj fields).sortKeys = .obj (sortedFields fields) := by
  rw [sortKeys, sortFields_eq]
  rfl

@[simp] theorem sortKeys_arr (items : List Json) :
    (Json.arr items).sortKeys = .arr (items.map sortKeys) := by
  rw [sortKeys, sortItems_eq]

@[simp] theorem sortKeys_null : Json.null.sortKeys = .null := rfl

@[simp] theorem sortKeys_bool (b : Bool) : (Json.bool b).sortKeys = .bool b := rfl

@[simp] theorem sortKeys_int (n : ℤ) : (Json.int n).sortKeys = .int n := rfl

@[simp] theorem sortKeys_float (repr : String) : (Json.float repr).sortKeys = .float repr := rfl

@[simp] theorem sortKeys_str (s : String) : (Json.str s).sortKeys = .str s := rfl

mutual

/-- Sorting twice is sorting once. -/
theorem sortKeys_sortKeys : ∀ v : Json, v.sortKeys.sortKeys = v.sortKeys
  | .null => rfl
  | .bool _ => rfl
  | .int _ => rfl
  | .float _ => rfl
  | .str _ => rfl
  | .arr items => by
      rw [sortKeys, sortKeys, sortItems_sortItems items]
  | .obj fields => by
      rw [sortKeys, sortKeys, sortFields_eq (Dict.byKey _), ← Dict.byKey_map, ← sortFields_eq,
        sortFields_sortFields fields, Dict.byKey_byKey]

theorem sortItems_sortItems : ∀ items, sortItems (sortItems items) = sortItems items
  | [] => rfl
  | item :: items => by
      rw [sortItems, sortItems, sortKeys_sortKeys item, sortItems_sortItems items]

theorem sortFields_sortFields : ∀ fields, sortFields (sortFields fields) = sortFields fields
  | [] => rfl
  | (name, value) :: fields => by
      rw [sortFields, sortFields, sortKeys_sortKeys value, sortFields_sortFields fields]

end

variable {F : String → Prop}

mutual

theorem proper_sortKeys : ∀ {v : Json}, Proper F v → Proper F v.sortKeys
  | .null, h => h
  | .bool _, h => h
  | .int _, h => h
  | .float _, h => h
  | .str _, h => h
  | .arr items, h => by
      rw [sortKeys]
      exact properItems_sortItems h
  | .obj fields, h => by
      have hkeys : Dict.keys (sortFields fields) = Dict.keys fields := by
        rw [sortFields_eq]
        exact List.map_map
      rw [sortKeys]
      refine ⟨Dict.keys_byKey_nodup.2 (hkeys ▸ h.1), properFields_iff.2 fun field hfield => ?_⟩
      exact properFields_iff.1 (properFields_sortFields h.2) field (Dict.mem_byKey.1 hfield)

theorem properItems_sortItems : ∀ {items : List Json}, ProperItems F items →
    ProperItems F (sortItems items)
  | [], h => h
  | _ :: _, h => ⟨proper_sortKeys h.1, properItems_sortItems h.2⟩

theorem properFields_sortFields : ∀ {fields : List (String × Json)}, ProperFields F fields →
    ProperFields F (sortFields fields)
  | [], h => h
  | (_, _) :: _, h => ⟨proper_sortKeys h.1, properFields_sortFields h.2⟩

end

end Json

@[simp] theorem sortedFields_sortedFields (fields : Fields) :
    sortedFields (sortedFields fields) = sortedFields fields := by
  have h := Json.sortKeys_sortKeys (.obj fields)
  rw [Json.sortKeys_obj, Json.sortKeys_obj] at h
  exact Json.obj.inj h

/-- A name has the sorted value of its field. -/
theorem lookup_sortedFields {fields : Fields} (h : (Dict.keys fields).Nodup) (name : String) :
    (sortedFields fields).lookup name = (fields.lookup name).map Json.sortKeys := by
  have hkeys : Dict.keys (fields.map fun field => (field.1, field.2.sortKeys)) =
      Dict.keys fields := List.map_map
  rw [sortedFields, Dict.lookup_byKey (hkeys ▸ h), Dict.lookup_map]

theorem keys_sortedFields_perm (fields : Fields) :
    (Dict.keys (sortedFields fields)).Perm (Dict.keys fields) := by
  have hkeys : Dict.keys (fields.map fun field => (field.1, field.2.sortKeys)) =
      Dict.keys fields := List.map_map
  rw [← hkeys]
  exact (Dict.byKey_perm _).map Prod.fst

end PrismAgent
