import PrismAgent.JsonText.Sorted

/-!
# Codecs

How the values of a type are dumped and validated, with the law that joins the two: a dump
whose keys have been sorted is validated to the value with its dictionaries in the order of
their keys. A codec of a type is built from the codecs of its parts.
-/

namespace PrismAgent

open JsonText

/-- A dump and a validation; `Fits` tells the values that the validation accepts, and `sorted`
what becomes of them. -/
structure Codec (α : Type) where
  dump : α → Json
  validate : Json → Option α
  Fits : α → Prop
  sorted : α → α
  validate_sortKeys : ∀ {a}, Fits a → validate (dump a).sortKeys = some (sorted a)
  sorted_sorted : ∀ a, sorted (sorted a) = sorted a

namespace Codec

variable {α : Type}

/-- `str`. -/
def text : Codec String where
  dump := .str
  validate := Json.asStr?
  Fits _ := True
  sorted s := s
  validate_sortKeys _ := rfl
  sorted_sorted _ := rfl

/-- `bool`; `lax` reads the other values that stand for one. -/
def flag (lax : Json → Option Bool) : Codec Bool where
  dump := .bool
  validate
    | .bool b => some b
    | v => lax v
  Fits _ := True
  sorted b := b
  validate_sortKeys _ := rfl
  sorted_sorted _ := rfl

/-- An enumeration of texts. -/
def choice (value : α → String) (members : List α)
    (h : ∀ a, (members.find? fun b => value b = value a) = some a) : Codec α where
  dump a := .str (value a)
  validate v := (Json.asStr? v).bind fun s => members.find? fun a => value a = s
  Fits _ := True
  sorted a := a
  validate_sortKeys _ := h _
  sorted_sorted _ := rfl

/-- `dict[str, Any]`. -/
def fields : Codec Fields where
  dump := .obj
  validate := Json.asObj?
  Fits _ := True
  sorted := sortedFields
  validate_sortKeys _ := by rw [Json.sortKeys_obj]; rfl
  sorted_sorted := sortedFields_sortedFields

/-- `list[dict[str, Any]]`. -/
def objects : Codec Json where
  dump v := v
  validate
    | .arr items => if items.all Json.isObj then some (.arr items) else none
    | _ => none
  Fits v := ∃ items : List Json, v = .arr items ∧ items.all Json.isObj = true
  sorted := Json.sortKeys
  validate_sortKeys := by
    rintro _ ⟨items, rfl, hall⟩
    have hsorted : ∀ v : Json, v.sortKeys.isObj = v.isObj := fun v => by
      cases v <;> simp [Json.isObj]
    have hitems : (items.map Json.sortKeys).all Json.isObj = true := by
      rwa [List.all_map, show Json.isObj ∘ Json.sortKeys = Json.isObj from funext hsorted]
    simp only [Json.sortKeys_arr, hitems, if_true]
  sorted_sorted := Json.sortKeys_sortKeys

section Optional

variable (c : Codec α) (h : c.validate .null = none)

include h

/-- A value that is not `None`. -/
theorem sortKeys_dump_ne_null {a : α} (ha : c.Fits a) : (c.dump a).sortKeys ≠ .null := by
  intro hnull
  have hvalid := c.validate_sortKeys ha
  rw [hnull, h] at hvalid
  cases hvalid

/-- `T | None`, where `T` does not admit `None`. -/
def optional : Codec (Option α) where
  dump
    | some a => c.dump a
    | none => .null
  validate
    | .null => some none
    | v => (c.validate v).map some
  Fits o := ∀ a ∈ o, c.Fits a
  sorted := Option.map c.sorted
  validate_sortKeys {o} ho := by
    cases o with
    | none => rfl
    | some a =>
        have hne := c.sortKeys_dump_ne_null h (ho a rfl)
        have hvalid := c.validate_sortKeys (ho a rfl)
        dsimp only
        split
        next hnull => exact absurd hnull hne
        next => rw [hvalid]; rfl
  sorted_sorted o := by
    cases o with
    | none => rfl
    | some a => exact congrArg some (c.sorted_sorted a)

end Optional

section Containers

variable (c : Codec α)

theorem mapM_map_eq_some {β γ : Type} {f : β → Option γ} {g : α → β} {s : α → γ} {as : List α}
    (h : ∀ a ∈ as, f (g a) = some (s a)) : (as.map g).mapM f = some (as.map s) := by
  induction as with
  | nil => rfl
  | cons a as ih =>
      rw [List.map_cons, List.mapM_cons, h a List.mem_cons_self,
        ih fun b hb => h b (List.mem_cons_of_mem a hb)]
      rfl

/-- `list[T]`. -/
def list : Codec (List α) where
  dump as := .arr (as.map c.dump)
  validate
    | .arr items => items.mapM c.validate
    | _ => none
  Fits as := ∀ a ∈ as, c.Fits a
  sorted := List.map c.sorted
  validate_sortKeys {as} h := by
    rw [Json.sortKeys_arr, List.map_map]
    exact mapM_map_eq_some fun a ha => c.validate_sortKeys (h a ha)
  sorted_sorted as := by
    rw [List.map_map]
    exact List.map_congr_left fun a _ => c.sorted_sorted a

/-- `dict[str, T]`. -/
def dict : Codec (Dict String α) where
  dump d := .obj (d.map fun e => (e.1, c.dump e.2))
  validate
    | .obj fields => fields.mapM fun field => (c.validate field.2).map fun a => (field.1, a)
    | _ => none
  Fits d := ∀ e ∈ d, c.Fits e.2
  sorted d := Dict.byKey (d.map fun e => (e.1, c.sorted e.2))
  validate_sortKeys {d} h := by
    have hfields : sortedFields (d.map fun e => (e.1, c.dump e.2)) =
        (Dict.byKey d).map fun e => (e.1, (c.dump e.2).sortKeys) := by
      unfold sortedFields
      rw [List.map_map]
      exact Dict.byKey_map (fun a => (c.dump a).sortKeys) d
    rw [Json.sortKeys_obj, hfields, Dict.byKey_map]
    refine mapM_map_eq_some fun e he => ?_
    exact congrArg (Option.map _) (c.validate_sortKeys (h e (Dict.mem_byKey.1 he)))
  sorted_sorted d := by
    rw [← Dict.byKey_map, Dict.byKey_byKey, List.map_map]
    exact congrArg Dict.byKey
      (List.map_congr_left fun e _ => congrArg (Prod.mk e.1) (c.sorted_sorted e.2))

end Containers

section Proper

variable (F : String → Prop) (c : Codec α)

/-- The text of the dump keeps it. -/
def Proper (a : α) : Prop := JsonText.Proper F (c.dump a)

@[simp] theorem text_proper (s : String) : text.Proper F s := trivial

@[simp] theorem flag_proper (lax : Json → Option Bool) (b : Bool) : (flag lax).Proper F b :=
  trivial

@[simp] theorem choice_proper {value : α → String} {members : List α}
    (h : ∀ a, (members.find? fun b => value b = value a) = some a) (a : α) :
    (choice value members h).Proper F a := trivial

@[simp] theorem fields_proper (d : Fields) :
    fields.Proper F d ↔ JsonText.Proper F (.obj d) := Iff.rfl

@[simp] theorem optional_proper (h : c.validate .null = none) (o : Option α) :
    (c.optional h).Proper F o ↔ ∀ a ∈ o, c.Proper F a := by
  cases o with
  | none => exact iff_of_true trivial (by simp)
  | some a => simp [Proper, optional]

@[simp] theorem list_proper (as : List α) : c.list.Proper F as ↔ ∀ a ∈ as, c.Proper F a := by
  unfold Proper
  exact properItems_iff.trans List.forall_mem_map

end Proper

section Simp

variable (c : Codec α)

@[simp] theorem text_fits (s : String) : text.Fits s := trivial

@[simp] theorem text_sorted : text.sorted = id := rfl

theorem text_validate_null : text.validate .null = none := rfl

@[simp] theorem flag_fits (lax : Json → Option Bool) (b : Bool) : (flag lax).Fits b := trivial

@[simp] theorem flag_sorted (lax : Json → Option Bool) : (flag lax).sorted = id := rfl

@[simp] theorem choice_fits {value : α → String} {members : List α}
    (h : ∀ a, (members.find? fun b => value b = value a) = some a) (a : α) :
    (choice value members h).Fits a := trivial

@[simp] theorem choice_sorted {value : α → String} {members : List α}
    (h : ∀ a, (members.find? fun b => value b = value a) = some a) :
    (choice value members h).sorted = id := rfl

@[simp] theorem fields_fits (d : Fields) : fields.Fits d := trivial

@[simp] theorem fields_sorted : fields.sorted = sortedFields := rfl

@[simp] theorem objects_sorted : objects.sorted = Json.sortKeys := rfl

@[simp] theorem optional_fits (h : c.validate .null = none) (o : Option α) :
    (c.optional h).Fits o ↔ ∀ a ∈ o, c.Fits a := Iff.rfl

@[simp] theorem optional_sorted (h : c.validate .null = none) :
    (c.optional h).sorted = Option.map c.sorted := rfl

@[simp] theorem list_fits (as : List α) : c.list.Fits as ↔ ∀ a ∈ as, c.Fits a := Iff.rfl

@[simp] theorem list_sorted : c.list.sorted = List.map c.sorted := rfl

@[simp] theorem dict_fits (d : Dict String α) : c.dict.Fits d ↔ ∀ e ∈ d, c.Fits e.2 := Iff.rfl

@[simp] theorem dict_sorted (d : Dict String α) :
    c.dict.sorted d = Dict.byKey (d.map fun e => (e.1, c.sorted e.2)) := rfl

end Simp

end Codec

end PrismAgent
