import PrismAgent.Capabilities.SprintTools
import PrismAgent.Dictionary.Filling

/-!
# Payloads of the work item tools

What the tools of `workitem_tools.py` send to the API: allowed fields whose values the API
accepts, with assignees resolved against the hydrated members. Beyond ASCII, `lower` and
`isDecimal` are `str.lower` and the digits of a pattern's `\d`.
-/

namespace PrismAgent

/-- What the text functions of the standard library do. -/
structure TextRules where
  lower : String → String
  isDecimal : Char → Bool

def WORK_ITEM_PRIORITIES : List String := ["low", "medium", "high", "urgent"]

def WORK_ITEM_STATUSES : List String := ["todo", "in_progress", "in_review", "done", "archived"]

def MEMBER_ENTITY_KEYS : List String := ["project_members", "workspace_members", "member_workloads"]

/-- `_valid_uuid_or_none`. -/
def validUuidOrNone (value : Json) : Option String :=
  if value.isNull then none else parseUuid value.toStr

/-- `_filter_payload`: the allowed fields that are not null. -/
def filterPayload (input : Fields) (allowed : List String) : Fields :=
  input.filter fun entry => entry.1 ∈ allowed && !entry.2.isNull

section Members

variable (rules : TextRules)

/-- `str(value or "").strip()`. -/
def cleanText (value : Json) : String :=
  strip (if value.truthy then value.toStr else "")

/-- The names under which one member is known. -/
def memberNames (member : Json) : List (String × String) :=
  match member with
  | .obj fields =>
      let text := fun key => strip (textField fields key "")
      let username := text "username"
      if username = "" then []
      else
        (username :: [text "fullName", text "userId"].filter (· ≠ "")).map fun name =>
          (rules.lower name, username)
  | _ => []

/-- `_known_member_usernames`: of several members with one name the first counts. -/
def knownMemberUsernames (context : AgentContext) : Dict String String :=
  let members := MEMBER_ENTITY_KEYS.flatMap fun key =>
    match context.entities.lookup key with
    | some (.arr members) => members
    | _ => []
  (members.flatMap (memberNames rules)).foldl
    (fun resolver entry => Dict.setDefault resolver entry.1 entry.2) []

/-- The username that a name resolves to; without known members every name stands. -/
def resolveUsername (known : Dict String String) (name : String) : Option String :=
  if known = [] then some name
  else (known.lookup (rules.lower name)).filter (· ≠ "")

/-- `_clean_usernames`. -/
def cleanUsernames (known : Dict String String) (raw : Json) : List String :=
  let usernames := match raw with
    | .arr usernames => usernames
    | value => [value]
  usernames.foldl (fun cleaned username =>
    let name := cleanText username
    if name = "" then cleaned
    else
      match resolveUsername rules known name with
      | some resolved => if resolved ∈ cleaned then cleaned else cleaned ++ [resolved]
      | none => cleaned) []

end Members

section Normalization

variable (rules : TextRules) (known : Dict String String)

/-- Replace the value of a field by its fixed form, or drop the field. -/
def fixField (field : String) (fix : Json → Option Json) (payload : Fields) : Fields :=
  match payload.lookup field with
  | none => payload
  | some value =>
      match fix value with
      | some fixed => Dict.insert payload field fixed
      | none => Dict.erase payload field

/-- A value of an enumeration, in lower case. -/
def fixEnum (allowed : List String) (value : Json) : Option Json :=
  let text := rules.lower (strip value.toStr)
  if text ∈ allowed then some (.str text) else none

/-- The text begins with an ISO date. -/
def isIsoDate (text : String) : Bool :=
  let decimals := fun (n : ℕ) (cs : List Char) => cs.length = n && cs.all rules.isDecimal
  let cs := text.toList
  decimals 4 (cs.take 4) && (cs.drop 4).take 1 = ['-'] && decimals 2 ((cs.drop 5).take 2) &&
    (cs.drop 7).take 1 = ['-'] && decimals 2 ((cs.drop 8).take 2)

def fixDate (value : Json) : Option Json :=
  if isIsoDate rules (strip value.toStr) then some value else none

def fixAssignees (value : Json) : Option Json :=
  let cleaned := cleanUsernames rules known value
  if cleaned = [] then none else some (.arr (cleaned.map .str))

/-- Labels of at most 30 characters, each once. -/
def fixLabels (value : Json) : Option Json :=
  let labels := match value with
    | .arr labels => labels
    | label => [label]
  let cleaned := labels.foldl (fun cleaned label =>
    let name := String.ofList ((cleanText label).toList.take 30)
    if name = "" ∨ name ∈ cleaned then cleaned else cleaned ++ [name]) []
  if cleaned = [] then none else some (.arr (cleaned.map .str))

/-- `_normalize_node_payload`. -/
def normalizeNodePayload (payload : Fields) : Fields :=
  fixField "labelNames" fixLabels
    (fixField "assigneeUsernames" (fixAssignees rules known)
      (fixField "dueDate" (fixDate rules)
        (fixField "startDate" (fixDate rules)
          (fixField "status" (fixEnum rules WORK_ITEM_STATUSES)
            (fixField "priority" (fixEnum rules WORK_ITEM_PRIORITIES) payload)))))

end Normalization

section Lookup

variable {rules : TextRules} {known : Dict String String} {payload : Fields}

theorem lookup_fixField_self (field : String) (fix : Json → Option Json) :
    (fixField field fix payload).lookup field = (payload.lookup field).bind fix := by
  unfold fixField
  cases hvalue : payload.lookup field with
  | none => exact hvalue
  | some value =>
      dsimp only [Option.bind_some]
      cases fix value with
      | some fixed => exact Dict.lookup_insert_self _ _ _
      | none => exact Dict.lookup_erase_self payload field

theorem lookup_fixField_of_ne {field key : String} (h : key ≠ field)
    (fix : Json → Option Json) :
    (fixField field fix payload).lookup key = payload.lookup key := by
  unfold fixField
  split
  · rfl
  · split
    · exact Dict.lookup_insert_of_ne h
    · exact Dict.lookup_erase_of_ne h

/-- Normalization keeps fields that it does not know. -/
theorem lookup_normalizeNodePayload {key : String}
    (h : key ∉ ["labelNames", "assigneeUsernames", "dueDate", "startDate", "status", "priority"]) :
    (normalizeNodePayload rules known payload).lookup key = payload.lookup key := by
  simp only [List.mem_cons, List.not_mem_nil, or_false, not_or] at h
  obtain ⟨hlabels, hassignees, hdue, hstart, hstatus, hpriority⟩ := h
  unfold normalizeNodePayload
  rw [lookup_fixField_of_ne hlabels, lookup_fixField_of_ne hassignees, lookup_fixField_of_ne hdue,
    lookup_fixField_of_ne hstart, lookup_fixField_of_ne hstatus, lookup_fixField_of_ne hpriority]

theorem lookup_normalizeNodePayload_assignees :
    (normalizeNodePayload rules known payload).lookup "assigneeUsernames" =
      (payload.lookup "assigneeUsernames").bind (fixAssignees rules known) := by
  unfold normalizeNodePayload
  rw [lookup_fixField_of_ne (by decide), lookup_fixField_self, lookup_fixField_of_ne (by decide),
    lookup_fixField_of_ne (by decide), lookup_fixField_of_ne (by decide),
    lookup_fixField_of_ne (by decide)]

/-- A field that is not allowed is not sent. -/
theorem lookup_filterPayload_of_notMem {allowed : List String} {key : String}
    (h : key ∉ allowed) : (filterPayload payload allowed).lookup key = none := by
  refine List.lookup_eq_none_iff.2 fun entry hentry => ?_
  have hallowed := (List.mem_filter.1 hentry).2
  rw [Bool.and_eq_true, decide_eq_true_eq] at hallowed
  rw [bne_iff_ne]
  rintro rfl
  exact h hallowed.1

end Lookup

end PrismAgent
