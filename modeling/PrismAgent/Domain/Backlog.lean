import PrismAgent.Domain.Fields

/-!
# Backlog signals

`compute_backlog_signals`: the items of a backlog that need refinement, found in one pass over
the items that are not closed. A point in time is a number of microseconds in UTC.
-/

namespace PrismAgent

/-- `datetime.fromisoformat`, a text without a time zone being read as UTC. The shortest date
that it accepts is `YYYYWww`. -/
structure IsoFormat where
  fromisoformat : String → Option ℤ
  rejects : ∀ text, text.length < 7 → fromisoformat text = none

/-- A point in time, and its `isoformat`. -/
structure CurrentTime where
  instant : ℤ
  isoformat : String

def DAY : ℤ := 24 * 60 * 60 * 1000000

def STALE_AFTER_DAYS : ℤ := 14

def THIN_DESCRIPTION_LENGTH : ℕ := 30

def OVERLOADED_ACTIVE_ITEM_COUNT : ℤ := 8

def MAX_SIGNAL_EXAMPLES : ℕ := 15

def OPEN_STATUSES : List String := ["todo", "in_progress", "in_review"]

def CLOSED_STATUSES : List String := ["done", "archived"]

/-- `data.get(key)`. -/
def getField (data : Fields) (key : String) : Json := (data.lookup key).getD .null

/-- `text.replace("Z", "+00:00")`. -/
def replaceZulu (text : String) : String :=
  String.ofList (text.toList.flatMap fun c => if c = 'Z' then "+00:00".toList else [c])

section Signals

variable (iso : IsoFormat) (now : ℤ) (item : Fields)

def parseDatetime (value : Json) : Option ℤ :=
  if value.truthy then iso.fromisoformat (replaceZulu (strip value.toStr)) else none

def itemRef : Fields :=
  [("itemId", getField item "itemId"), ("title", getField item "title"),
    ("status", getField item "status")]

def isClosed : Bool := textField item "status" "" ∈ CLOSED_STATUSES

/-- `item.get("statusChangedAt") or item.get("createdAt")`. -/
def changedAt : Json :=
  if (getField item "statusChangedAt").truthy then getField item "statusChangedAt"
  else getField item "createdAt"

/-- A date lies so far back that an item of that date is stale. -/
def isLongAgo (date : ℤ) : Bool := STALE_AFTER_DAYS * DAY < now - date

def staleEntry : Option Fields :=
  ((parseDatetime iso (changedAt item)).filter (isLongAgo now)).map fun date =>
    itemRef item ++ [("daysIdle", .int ((now - date) / DAY))]

/-- The due date has passed. -/
def isOverdue : Bool :=
  ((parseDatetime iso (getField item "dueDate")).filter fun date => date < now).isSome

def overdueEntry : Option Fields :=
  if isOverdue iso now item then
    some (itemRef item ++ [("dueDate", .str (getField item "dueDate").toStr)])
  else none

/-- The item is urgent and nobody's. -/
def isUnassignedUrgent : Bool :=
  textField item "priority" "" ∈ ["high", "urgent"] ∧
    (getField item "assigneeUsernames").truthy = false

def unassignedUrgentEntry : Option Fields :=
  if isUnassignedUrgent item then
    some (itemRef item ++ [("priority", getField item "priority")])
  else none

def isThin : Bool :=
  (strip (textField item "description" "")).length < THIN_DESCRIPTION_LENGTH

def thinDescriptionEntry : Option Fields := if isThin item then some (itemRef item) else none

/-- The items by their ids; of two with one id the later one counts. -/
def itemsById (items : List Fields) : Dict String Fields :=
  Dict.ofPairs (items.filterMap fun item =>
    (truthyField item "itemId").map fun itemId => (itemId.toStr, item))

/-- The key under which an item's parent is looked up; without a parent it is `None`. -/
def parentKey : String := (getField item "parentId").toStr

def parentMismatchEntry (byId : Dict String Fields) : Option Fields :=
  ((byId.lookup (parentKey item)).filter isClosed).map fun parent =>
    itemRef item ++ [("parentItemId", getField parent "itemId"),
      ("parentTitle", getField parent "title"), ("parentStatus", getField parent "status")]

end Signals

/-- The lists of flagged items, before they are cut to a number of examples. -/
structure BacklogSignals where
  stale : List Fields
  overdue : List Fields
  unassignedUrgent : List Fields
  thinDescription : List Fields
  parentMismatch : List Fields

/-- The pass over the items. -/
def flaggedItems (iso : IsoFormat) (now : ℤ) (items : List Fields) : BacklogSignals :=
  let unclosed := items.filter fun item => !isClosed item
  { stale := unclosed.filterMap (staleEntry iso now)
    overdue := unclosed.filterMap (overdueEntry iso now)
    unassignedUrgent := unclosed.filterMap unassignedUrgentEntry
    thinDescription := unclosed.filterMap thinDescriptionEntry
    parentMismatch := unclosed.filterMap (parentMismatchEntry · (itemsById items)) }

/-- The members with too many active items; a truth value counts as an integer. -/
def overloadedEntry (workload : Fields) : Option Fields :=
  let count :=
    match getField workload "activeItemCount" with
    | .int count => some count
    | .bool b => some (if b then 1 else 0)
    | _ => none
  (count.filter fun count => OVERLOADED_ACTIVE_ITEM_COUNT ≤ count).map fun _ =>
    [("username", getField workload "username"),
      ("activeItemCount", getField workload "activeItemCount")]

def computeBacklogSignals (iso : IsoFormat) (currentTime : CurrentTime)
    (backlogItems memberWorkloads : List Json) : Fields :=
  let items := backlogItems.filterMap Json.asObj?
  let flagged := flaggedItems iso currentTime.instant items
  let examples := fun entries : List Fields =>
    Json.arr ((entries.take MAX_SIGNAL_EXAMPLES).map .obj)
  [("computedAt", .str currentTime.isoformat),
    ("thresholds", .obj [("staleAfterDays", .int STALE_AFTER_DAYS),
      ("thinDescriptionLength", .int THIN_DESCRIPTION_LENGTH),
      ("overloadedActiveItemCount", .int OVERLOADED_ACTIVE_ITEM_COUNT)]),
    ("openItemCount",
      .int (items.countP fun item => textField item "status" "" ∈ OPEN_STATUSES)),
    ("staleItems", examples flagged.stale),
    ("overdueItems", examples flagged.overdue),
    ("unassignedUrgentItems", examples flagged.unassignedUrgent),
    ("thinDescriptionItems", examples flagged.thinDescription),
    ("closedParentWithOpenChildren", examples flagged.parentMismatch),
    ("overloadedMembers",
      .arr (((memberWorkloads.filterMap Json.asObj?).filterMap overloadedEntry).map .obj))]

end PrismAgent
