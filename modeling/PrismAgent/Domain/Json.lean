import Mathlib.Data.Int.Notation
import Mathlib.Data.List.TakeWhile
import PrismAgent.Dictionary.Basic

/-!
# JSON-like values

The untyped values that payloads, tool inputs and tool outputs carry. A float is
kept as the text that prints it. `Json.toStr` is `str(value)`.
-/

namespace PrismAgent

inductive Json
  | null
  | bool (b : Bool)
  | int (n : ℤ)
  | float (repr : String)
  | str (s : String)
  | arr (items : List Json)
  | obj (fields : List (String × Json))

namespace Json

/-- The truth value of a JSON-like value. -/
def truthy : Json → Bool
  | .null => false
  | .bool b => b
  | .int n => n ≠ 0
  | .float repr => repr ≠ "0.0" ∧ repr ≠ "-0.0"
  | .str s => s ≠ ""
  | .arr items => !items.isEmpty
  | .obj fields => !fields.isEmpty

/-- One character inside a printed string, `quote` being the delimiter. -/
def reprChar (quote c : Char) : String :=
  if c = quote ∨ c = '\\' then "\\" ++ c.toString
  else if c = '\n' then "\\n"
  else if c = '\r' then "\\r"
  else if c = '\t' then "\\t"
  else c.toString

/-- `repr` of a string of printable characters, tabs and line breaks: single
quotes unless only single quotes occur. -/
def reprString (s : String) : String :=
  let quote := if '\'' ∈ s.toList ∧ '"' ∉ s.toList then '"' else '\''
  quote.toString ++ String.join (s.toList.map (reprChar quote)) ++ quote.toString

mutual

/-- `repr(value)`. -/
def toRepr : Json → String
  | .null => "None"
  | .bool b => if b then "True" else "False"
  | .int n => toString n
  | .float repr => repr
  | .str s => reprString s
  | .arr items => "[" ++ ", ".intercalate (itemReprs items) ++ "]"
  | .obj fields => "\x7b" ++ ", ".intercalate (fieldReprs fields) ++ "\x7d"

def itemReprs : List Json → List String
  | [] => []
  | value :: items => toRepr value :: itemReprs items

def fieldReprs : List (String × Json) → List String
  | [] => []
  | (key, value) :: fields => (reprString key ++ ": " ++ toRepr value) :: fieldReprs fields

end

/-- `str(value)`. -/
def toStr : Json → String
  | .str s => s
  | value => toRepr value

def asStr? : Json → Option String
  | .str s => some s
  | _ => none

def asObj? : Json → Option (List (String × Json))
  | .obj fields => some fields
  | _ => none

/-- `isinstance(value, dict)`. -/
def isObj : Json → Bool
  | .obj _ => true
  | _ => false

end Json

/-- An object's fields, as payloads and tool outputs hold them. -/
abbrev Fields := Dict String Json

/-- `c.isspace()`, which is also what `\s` matches. -/
def isWhiteSpace (c : Char) : Bool :=
  let n := c.toNat
  (9 ≤ n && n ≤ 13) || (28 ≤ n && n ≤ 32) || (0x2000 ≤ n && n ≤ 0x200a) ||
    n ∈ [0x85, 0xa0, 0x1680, 0x2028, 0x2029, 0x202f, 0x205f, 0x3000]

/-- The printable characters of ASCII are no white space. -/
theorem isWhiteSpace_of_graphic {c : Char} (h : 32 < c.toNat) (h' : c.toNat < 128) :
    isWhiteSpace c = false := by
  unfold isWhiteSpace
  simp only [Bool.or_eq_false_iff, Bool.and_eq_false_iff, decide_eq_false_iff_not, List.mem_cons,
    List.not_mem_nil, or_false]
  omega

/-- `s.strip()`, on the characters of the text. -/
def strip (s : String) : String :=
  String.ofList ((s.toList.dropWhile isWhiteSpace).reverse.dropWhile isWhiteSpace).reverse

theorem length_strip_le (s : String) : (strip s).length ≤ s.length := by
  unfold strip
  rw [String.length_ofList, List.length_reverse, ← String.length_toList]
  refine (List.length_dropWhile_le _ _).trans ?_
  rw [List.length_reverse]
  exact List.length_dropWhile_le _ _

theorem mem_dropWhile {α : Type} {p : α → Bool} {xs : List α} {x : α} (hx : x ∈ xs)
    (hp : p x = false) : x ∈ xs.dropWhile p := by
  have hsplit : xs.takeWhile p ++ xs.dropWhile p = xs := List.takeWhile_append_dropWhile
  rw [← hsplit, List.mem_append] at hx
  refine hx.resolve_left fun htake => ?_
  rw [List.mem_takeWhile_imp htake] at hp
  cases hp

/-- Stripping keeps everything that is not white space. -/
theorem mem_strip {s : String} {c : Char} (hc : c ∈ s.toList) (hspace : isWhiteSpace c = false) :
    c ∈ (strip s).toList := by
  unfold strip
  rw [String.toList_ofList, List.mem_reverse]
  refine mem_dropWhile ?_ hspace
  rw [List.mem_reverse]
  exact mem_dropWhile hc hspace

theorem strip_ne_empty_iff {s : String} :
    strip s ≠ "" ↔ ∃ c ∈ s.toList, isWhiteSpace c = false := by
  constructor
  · intro h
    by_contra hall
    apply h
    have hdrop : s.toList.dropWhile isWhiteSpace = [] := by
      rw [List.dropWhile_eq_nil_iff]
      intro c hc
      by_contra hspace
      exact hall ⟨c, hc, by simpa using hspace⟩
    unfold strip
    rw [hdrop]
    rfl
  · rintro ⟨c, hc, hspace⟩ h
    have hmem := mem_strip hc hspace
    rw [h] at hmem
    cases hmem

/-- A text that stripping leaves something of is not blank afterwards. -/
theorem strip_strip_ne_empty {s : String} (h : strip s ≠ "") : strip (strip s) ≠ "" := by
  obtain ⟨c, hc, hspace⟩ := strip_ne_empty_iff.1 h
  exact strip_ne_empty_iff.2 ⟨c, mem_strip hc hspace, hspace⟩

end PrismAgent
