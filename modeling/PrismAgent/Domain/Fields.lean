import PrismAgent.Domain.Json

/-!
# Reading fields

How the runtime reads the fields of untyped values: values that count as false are treated
as missing, and lists are taken from a value or from a field of it.
-/

namespace PrismAgent

def Json.isNull : Json → Bool
  | .null => true
  | _ => false

/-- `data.get(key)`, where its truth value is true. -/
def truthyField (data : Fields) (key : String) : Option Json :=
  (data.lookup key).filter Json.truthy

/-- `str(data.get(key) or default)`. -/
def textField (data : Fields) (key default : String) : String :=
  match truthyField data key with
  | some value => value.toStr
  | none => default

/-- The objects of a list value. -/
def objectsOf : Json → Option (List Json)
  | .arr items => some (items.filter Json.isObj)
  | _ => none

/-- `_extract_items`: the objects of a list, or of the first list field with such a name. -/
def extractItems (data : Json) : List Json :=
  match data with
  | .arr items => items.filter Json.isObj
  | .obj fields =>
      (["items", "members", "jobs", "data"].findSome? fun key =>
        (fields.lookup key).bind objectsOf).getD []
  | _ => []

/-- The named fields that are present, in the order of the names. -/
def presentFields (names : List String) (data : Fields) : Fields :=
  names.filterMap fun name =>
    match data.lookup name with
    | some value => if value.isNull then none else some (name, value)
    | none => none

end PrismAgent
