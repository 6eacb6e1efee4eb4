import PrismAgent.JsonText.Codecs

/-!
# Classes of fields

A class is given by its fields, one after the other: the name of a field, its codec, where its
value is taken from and what it is when the field is absent. Fields that the class does not have
are forbidden. The fields are read by their names, so the order in which a text lists them does
not matter.
-/

namespace PrismAgent

open JsonText

/-- `extra="forbid"`. -/
def hasOnly (names : List String) (fields : Fields) : Bool :=
  fields.all fun field => field.1 ∈ names

section Fields

variable {α : Type}

/-- A required field. -/
def required (fields : Fields) (name : String) (read : Json → Option α) : Option α :=
  (fields.lookup name).bind read

/-- A field with a default. -/
def withDefault (fields : Fields) (name : String) (read : Json → Option α) (default : α) :
    Option α :=
  match fields.lookup name with
  | some v => read v
  | none => some default

end Fields

/-- The fields that make an `α`, taken from a `σ`. -/
structure Model (σ α : Type) where
  names : List String
  dump : σ → Fields
  read : Fields → Option α
  Fits : σ → Prop
  sorted : σ → α
  keys_dump : ∀ s, Dict.keys (dump s) = names
  /-- The fields are found by their names. -/
  read_of_lookup : ∀ {s fields}, Fits s →
    (∀ field ∈ dump s, fields.lookup field.1 = some field.2.sortKeys) →
      read fields = some (sorted s)

namespace Model

variable {σ α β : Type}

/-- No field yet. -/
def make (a : α) : Model σ α where
  names := []
  dump _ := []
  read _ := some a
  Fits _ := True
  sorted _ := a
  keys_dump _ := rfl
  read_of_lookup _ _ := rfl

/-- The fields make something else. -/
def map (f : α → β) (m : Model σ α) : Model σ β where
  names := m.names
  dump := m.dump
  read fields := (m.read fields).map f
  Fits := m.Fits
  sorted s := f (m.sorted s)
  keys_dump := m.keys_dump
  read_of_lookup h hfields := by rw [m.read_of_lookup h hfields]; rfl

/-- One more field, read from the object by `find`. -/
def field (m : Model σ (α → β)) (name : String) (c : Codec α) (get : σ → α)
    (find : Fields → Option α)
    (hfind : ∀ {fields v}, fields.lookup name = some v → find fields = c.validate v) :
    Model σ β where
  names := m.names ++ [name]
  dump s := m.dump s ++ [(name, c.dump (get s))]
  read fields := (m.read fields).bind fun f => (find fields).map f
  Fits s := m.Fits s ∧ c.Fits (get s)
  sorted s := m.sorted s (c.sorted (get s))
  keys_dump s := by
    rw [← m.keys_dump s]
    exact List.map_append
  read_of_lookup h hfields := by
    obtain ⟨hmodel, hfield⟩ := List.forall_mem_append.1 hfields
    rw [m.read_of_lookup h.1 hmodel, Option.bind_some,
      hfind (hfield _ (List.mem_singleton_self _)), c.validate_sortKeys h.2]
    rfl

def required (m : Model σ (α → β)) (name : String) (c : Codec α) (get : σ → α) : Model σ β :=
  m.field name c get (fun fields => PrismAgent.required fields name c.validate) fun h => by
    rw [PrismAgent.required, h, Option.bind_some]

def withDefault (m : Model σ (α → β)) (name : String) (c : Codec α) (get : σ → α) (default : α) :
    Model σ β :=
  m.field name c get (fun fields => PrismAgent.withDefault fields name c.validate default)
    fun h => by rw [PrismAgent.withDefault, h]

/-- A field with a default whose value is not kept. -/
def passing (m : Model σ α) (name : String) (c : Codec β) (get : σ → β) (default : β) :
    Model σ α :=
  (m.map fun a _ => a).withDefault name c get default

section Simp

variable (m : Model σ (α → β)) (name : String) (c : Codec α) (get : σ → α) (default : α) (s : σ)

@[simp] theorem make_names (a : α) : (make a : Model σ α).names = [] := rfl

@[simp] theorem map_names (f : α → β) (m : Model σ α) : (m.map f).names = m.names := rfl

@[simp] theorem required_names : (m.required name c get).names = m.names ++ [name] := rfl

@[simp] theorem withDefault_names :
    (m.withDefault name c get default).names = m.names ++ [name] := rfl

@[simp] theorem passing_names (m : Model σ β) :
    (m.passing name c get default).names = m.names ++ [name] := rfl

@[simp] theorem make_fits (a : α) : (make a : Model σ α).Fits s := trivial

@[simp] theorem make_sorted (a : α) : (make a : Model σ α).sorted s = a := rfl

@[simp] theorem map_fits (f : α → β) (m : Model σ α) : (m.map f).Fits s ↔ m.Fits s := Iff.rfl

@[simp] theorem map_sorted (f : α → β) (m : Model σ α) : (m.map f).sorted s = f (m.sorted s) :=
  rfl

@[simp] theorem required_fits : (m.required name c get).Fits s ↔ m.Fits s ∧ c.Fits (get s) :=
  Iff.rfl

@[simp] theorem required_sorted :
    (m.required name c get).sorted s = m.sorted s (c.sorted (get s)) := rfl

@[simp] theorem withDefault_fits :
    (m.withDefault name c get default).Fits s ↔ m.Fits s ∧ c.Fits (get s) := Iff.rfl

@[simp] theorem withDefault_sorted :
    (m.withDefault name c get default).sorted s = m.sorted s (c.sorted (get s)) := rfl

@[simp] theorem passing_fits (m : Model σ β) :
    (m.passing name c get default).Fits s ↔ m.Fits s ∧ c.Fits (get s) := Iff.rfl

@[simp] theorem passing_sorted (m : Model σ β) :
    (m.passing name c get default).sorted s = m.sorted s := rfl

end Simp

/-- The codec of a class. -/
def codec (m : Model σ σ) (hnames : m.names.Nodup) (Fits : σ → Prop) (sorted : σ → σ)
    (h : ∀ s, Fits s → m.Fits s ∧ m.sorted s = sorted s)
    (hsorted : ∀ s, sorted (sorted s) = sorted s) : Codec σ where
  dump s := .obj (m.dump s)
  validate
    | .obj fields => if hasOnly m.names fields then m.read fields else none
    | _ => none
  Fits := Fits
  sorted := sorted
  validate_sortKeys {s} hs := by
    have hnodup : (Dict.keys (m.dump s)).Nodup := by rwa [m.keys_dump]
    have honly : hasOnly m.names (sortedFields (m.dump s)) = true := by
      refine List.all_eq_true.2 fun field hfield => decide_eq_true ?_
      rw [← m.keys_dump s]
      exact (keys_sortedFields_perm _).mem_iff.1 (List.mem_map_of_mem hfield)
    have hlookup : ∀ field ∈ m.dump s,
        (sortedFields (m.dump s)).lookup field.1 = some field.2.sortKeys := fun field hfield => by
      rw [lookup_sortedFields hnodup, (Dict.lookup_eq_some_iff hnodup).2 hfield]
      rfl
    rw [Json.sortKeys_obj]
    dsimp only
    rw [if_pos honly, m.read_of_lookup (h s hs).1 hlookup, (h s hs).2]
  sorted_sorted := hsorted

section Proper

variable (F : String → Prop) (m : Model σ (α → β)) (name : String) (c : Codec α) (get : σ → α)
  (default : α) (s : σ)

/-- The texts of the fields keep them. -/
def Proper (m : Model σ α) (s : σ) : Prop := ∀ field ∈ m.dump s, JsonText.Proper F field.2

@[simp] theorem make_proper (a : α) : (make a : Model σ α).Proper F s := List.forall_mem_nil _

@[simp] theorem required_proper :
    (m.required name c get).Proper F s ↔ m.Proper F s ∧ c.Proper F (get s) :=
  List.forall_mem_append.trans (and_congr Iff.rfl List.forall_mem_singleton)

@[simp] theorem withDefault_proper :
    (m.withDefault name c get default).Proper F s ↔ m.Proper F s ∧ c.Proper F (get s) :=
  List.forall_mem_append.trans (and_congr Iff.rfl List.forall_mem_singleton)

/-- The fields of a class have distinct names. -/
theorem codec_proper (m : Model σ σ) (hnames : m.names.Nodup) (Fits : σ → Prop) (sorted : σ → σ)
    (h : ∀ s, Fits s → m.Fits s ∧ m.sorted s = sorted s)
    (hsorted : ∀ s, sorted (sorted s) = sorted s) :
    (m.codec hnames Fits sorted h hsorted).Proper F s ↔ m.Proper F s := by
  have hkeys : (Dict.keys (m.dump s)).Nodup := (m.keys_dump s).symm ▸ hnames
  exact (and_iff_right hkeys).trans properFields_iff

end Proper

end Model

end PrismAgent
