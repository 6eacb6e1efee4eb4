import Mathlib.Data.List.Forall2
import Mathlib.Tactic.Linarith
import PrismAgent.Backlog.Signals

/-!
# Backlog signals and the calendar

Each signal lists the items of a backlog that are not closed and meet its criterion, in their
order. A due date without a time of day is read as the midnight with which the day begins, so
an item counts as overdue while its due day still goes on.
-/

namespace PrismAgent

/-- `date.fromisoformat`: a date alone, as the number of its day. Read as a point in time it is
the midnight with which the day begins. -/
structure DateFormat (iso : IsoFormat) where
  fromisoformat : String → Option ℤ
  midnight : ∀ text day, fromisoformat text = some day → iso.fromisoformat text = some (day * DAY)

/-- A signal about items: where its list stands, and which items it flags. -/
structure ItemSignal where
  key : String
  criterion : Fields → Bool

section Signals

variable (iso : IsoFormat) (now : ℤ)

/-- The items that are not closed. -/
def unclosedItems (backlogItems : List Json) : List Fields :=
  (backlogItems.filterMap Json.asObj?).filter fun item => !isClosed item

def isStale (item : Fields) : Bool := (parseDatetime iso (changedAt item)).any (isLongAgo now)

/-- The item's parent is closed. -/
def hasClosedParent (byId : Dict String Fields) (item : Fields) : Bool :=
  (byId.lookup (parentKey item)).any isClosed

def itemSignals (backlogItems : List Json) : List ItemSignal :=
  [⟨"staleItems", isStale iso now⟩, ⟨"overdueItems", isOverdue iso now⟩,
    ⟨"unassignedUrgentItems", isUnassignedUrgent⟩, ⟨"thinDescriptionItems", isThin⟩,
    ⟨"closedParentWithOpenChildren",
      hasClosedParent (itemsById (backlogItems.filterMap Json.asObj?))⟩]

/-- The day on which an item is due, where its due date is a date alone. -/
def dueDay {iso : IsoFormat} (dates : DateFormat iso) (item : Fields) : Option ℤ :=
  let dueDate := getField item "dueDate"
  if dueDate.truthy then dates.fromisoformat (replaceZulu (strip dueDate.toStr)) else none

/-- When an item was last changed, or created where that is missing. -/
def idleSince (item : Fields) : Option ℤ :=
  match truthyField item "statusChangedAt" with
  | some changed => parseDatetime iso changed
  | none => parseDatetime iso (getField item "createdAt")

/-- The signals of a backlog say what they mean. -/
structure MatchesCalendar (dates : DateFormat iso) (currentTime : CurrentTime)
    (backlogItems memberWorkloads : List Json) : Prop where
  listed : ∀ signal ∈ itemSignals iso currentTime.instant backlogItems, ∃ entries : List Fields,
    (computeBacklogSignals iso currentTime backlogItems memberWorkloads).lookup signal.key =
        some (.arr (entries.map .obj)) ∧
      List.Forall₂ (fun item entry => entry.take 3 = itemRef item)
        (((unclosedItems backlogItems).filter signal.criterion).take 15) entries
  unclosed : ∀ signal ∈ itemSignals iso currentTime.instant backlogItems, ∀ entries : List Fields,
    (computeBacklogSignals iso currentTime backlogItems memberWorkloads).lookup signal.key =
        some (.arr (entries.map .obj)) →
      ∀ entry ∈ entries, textField entry "status" "" ∉ ["done", "archived"]
  overdue : ∀ item ∈ unclosedItems backlogItems, ∀ day, dueDay dates item = some day →
    (isOverdue iso currentTime.instant item = true ↔ (day + 1) * DAY ≤ currentTime.instant)
  stale : ∀ item ∈ unclosedItems backlogItems,
    (isStale iso currentTime.instant item = true ↔
      ∃ date, idleSince iso item = some date ∧ 14 * DAY < currentTime.instant - date)
  grows : ∀ later, currentTime.instant ≤ later →
    ((unclosedItems backlogItems).filter (isStale iso currentTime.instant)).Sublist
        ((unclosedItems backlogItems).filter (isStale iso later)) ∧
      ((unclosedItems backlogItems).filter (isOverdue iso currentTime.instant)).Sublist
        ((unclosedItems backlogItems).filter (isOverdue iso later))

end Signals

section Lists

/-- What a flag finds among the items that meet its criterion, cut to some length. -/
theorem forall₂_take_filterMap {p : Fields → Bool} {flag : Fields → Option Fields}
    (hsome : ∀ item, (flag item).isSome = p item) (hrefers : Refers flag) (n : ℕ)
    (items : List Fields) :
    List.Forall₂ (fun item entry => entry.take 3 = itemRef item) ((items.filter p).take n)
      ((items.filterMap flag).take n) := by
  refine List.forall₂_take n ?_
  induction items with
  | nil => exact .nil
  | cons item items ih =>
      have hitem := hsome item
      cases hflag : flag item with
      | none =>
          rw [hflag] at hitem
          rw [List.filterMap_cons_none hflag, List.filter_cons_of_neg (by simp [← hitem])]
          exact ih
      | some entry =>
          rw [hflag] at hitem
          rw [List.filterMap_cons_some hflag, List.filter_cons_of_pos hitem.symm]
          exact .cons (hrefers item entry hflag) ih

theorem refers_parentMismatchEntry (byId : Dict String Fields) :
    Refers (parentMismatchEntry · byId) := by
  intro item entry h
  obtain ⟨parent, -, rfl⟩ := Option.map_eq_some_iff.1 h
  rfl

variable {iso : IsoFormat} {now : ℤ} {item entry : Fields}

theorem isSome_staleEntry (iso : IsoFormat) (now : ℤ) (item : Fields) :
    (staleEntry iso now item).isSome = isStale iso now item := by
  unfold staleEntry isStale
  rw [Option.isSome_map, Option.isSome_filter]

theorem isSome_overdueEntry (iso : IsoFormat) (now : ℤ) (item : Fields) :
    (overdueEntry iso now item).isSome = isOverdue iso now item := by
  unfold overdueEntry
  cases isOverdue iso now item <;> rfl

theorem isSome_unassignedUrgentEntry (item : Fields) :
    (unassignedUrgentEntry item).isSome = isUnassignedUrgent item := by
  unfold unassignedUrgentEntry
  cases isUnassignedUrgent item <;> rfl

theorem isSome_thinDescriptionEntry (item : Fields) :
    (thinDescriptionEntry item).isSome = isThin item := by
  unfold thinDescriptionEntry
  cases isThin item <;> rfl

theorem isSome_parentMismatchEntry (byId : Dict String Fields) (item : Fields) :
    (parentMismatchEntry item byId).isSome = hasClosedParent byId item := by
  unfold parentMismatchEntry hasClosedParent
  rw [Option.isSome_map, Option.isSome_filter]

variable (iso) in
/-- The list of a flag among the signals. -/
theorem lookup_computeBacklogSignals (currentTime : CurrentTime)
    (backlogItems memberWorkloads : List Json) {key : String} {flag : Fields → Option Fields}
    (h : (key, flag) ∈ [("staleItems", staleEntry iso currentTime.instant),
      ("overdueItems", overdueEntry iso currentTime.instant),
      ("unassignedUrgentItems", unassignedUrgentEntry),
      ("thinDescriptionItems", thinDescriptionEntry),
      ("closedParentWithOpenChildren",
        (parentMismatchEntry · (itemsById (backlogItems.filterMap Json.asObj?))))]) :
    (computeBacklogSignals iso currentTime backlogItems memberWorkloads).lookup key =
      some (.arr ((((unclosedItems backlogItems).filterMap flag).take 15).map .obj)) := by
  simp only [List.mem_cons, List.not_mem_nil, or_false, Prod.mk.injEq] at h
  unfold computeBacklogSignals flaggedItems MAX_SIGNAL_EXAMPLES unclosedItems
  rcases h with ⟨rfl, rfl⟩ | ⟨rfl, rfl⟩ | ⟨rfl, rfl⟩ | ⟨rfl, rfl⟩ | ⟨rfl, rfl⟩ <;>
    simp only [List.lookup_cons, String.reduceBEq]

/-- The flag behind a signal. -/
theorem flagged_itemSignals {backlogItems memberWorkloads : List Json} {currentTime : CurrentTime}
    {signal : ItemSignal} (h : signal ∈ itemSignals iso currentTime.instant backlogItems) :
    ∃ flag, (∀ item, (flag item).isSome = signal.criterion item) ∧ Refers flag ∧
      (computeBacklogSignals iso currentTime backlogItems memberWorkloads).lookup signal.key =
        some (.arr ((((unclosedItems backlogItems).filterMap flag).take 15).map .obj)) := by
  have hlookup := @lookup_computeBacklogSignals iso currentTime backlogItems memberWorkloads
  simp only [itemSignals, List.mem_cons, List.not_mem_nil, or_false] at h
  rcases h with rfl | rfl | rfl | rfl | rfl
  · refine ⟨staleEntry iso currentTime.instant, ?_, ?_, hlookup (.head _)⟩
    · exact isSome_staleEntry iso currentTime.instant
    · exact refers_staleEntry iso currentTime.instant
  · refine ⟨overdueEntry iso currentTime.instant, ?_, ?_, hlookup (.tail _ (.head _))⟩
    · exact isSome_overdueEntry iso currentTime.instant
    · exact refers_overdueEntry iso currentTime.instant
  · refine ⟨unassignedUrgentEntry, ?_, ?_, hlookup (.tail _ (.tail _ (.head _)))⟩
    · exact isSome_unassignedUrgentEntry
    · exact refers_unassignedUrgentEntry
  · refine ⟨thinDescriptionEntry, ?_, ?_, hlookup (.tail _ (.tail _ (.tail _ (.head _))))⟩
    · dsimp only
      exact isSome_thinDescriptionEntry
    · exact refers_thinDescriptionEntry
  · refine ⟨(parentMismatchEntry · (itemsById (backlogItems.filterMap Json.asObj?))), ?_, ?_,
      hlookup (.tail _ (.tail _ (.tail _ (.tail _ (.head _)))))⟩
    · exact isSome_parentMismatchEntry _
    · exact refers_parentMismatchEntry _

/-- An entry has the status of its item. -/
theorem textField_status_of_refers (h : entry.take 3 = itemRef item) :
    textField entry "status" "" = textField item "status" "" := by
  have hsplit : entry = itemRef item ++ entry.drop 3 := by
    rw [← h, List.take_append_drop]
  have hstatus : entry.lookup "status" = some (getField item "status") := by
    rw [hsplit, Dict.lookup_append]
    rfl
  unfold textField truthyField
  rw [hstatus, getField]
  cases item.lookup "status" <;> rfl

theorem isStale_iff : isStale iso now item = true ↔
    ∃ date, idleSince iso item = some date ∧ 14 * DAY < now - date := by
  have hidle : parseDatetime iso (changedAt item) = idleSince iso item := by
    unfold idleSince changedAt
    rw [truthyField_eq]
    cases (getField item "statusChangedAt").truthy <;> rfl
  unfold isStale
  rw [hidle, Option.any_eq_true]
  simp only [isLongAgo, decide_eq_true_eq]
  exact Iff.rfl

theorem isOverdue_iff : isOverdue iso now item = true ↔
    ∃ date, parseDatetime iso (getField item "dueDate") = some date ∧ date < now := by
  unfold isOverdue
  rw [Option.isSome_filter, Option.any_eq_true]
  simp only [decide_eq_true_eq]

theorem sublist_filter_of_imp {α : Type*} {p q : α → Bool} (h : ∀ a, p a = true → q a = true)
    (xs : List α) : (xs.filter p).Sublist (xs.filter q) := by
  have hboth : xs.filter p = (xs.filter q).filter p := by
    rw [List.filter_filter]
    refine List.filter_congr fun a _ => ?_
    cases hp : p a with
    | false => rfl
    | true => rw [h a hp]; rfl
  rw [hboth]
  exact List.filter_sublist

/-- An item that is due on a day counts as overdue from the beginning of the day. -/
theorem isOverdue_of_dueDay {dates : DateFormat iso} {day : ℤ} (h : dueDay dates item = some day) :
    isOverdue iso now item = true ↔ day * DAY < now := by
  have hparse : parseDatetime iso (getField item "dueDate") = some (day * DAY) := by
    unfold dueDay at h
    dsimp only at h
    unfold parseDatetime
    split at h
    next htruthy =>
      rw [if_pos htruthy]
      exact dates.midnight _ _ h
    next => cases h
  rw [isOverdue_iff, hparse]
  simp

end Lists

/-- The signals match the calendar unless an item is due on the day that still goes on. -/
theorem signals_match_calendar_iff (iso : IsoFormat) (dates : DateFormat iso)
    (currentTime : CurrentTime) (backlogItems memberWorkloads : List Json) :
    MatchesCalendar iso dates currentTime backlogItems memberWorkloads ↔
      ∀ item ∈ unclosedItems backlogItems, ∀ day, dueDay dates item = some day →
        ¬(day * DAY < currentTime.instant ∧ currentTime.instant < (day + 1) * DAY) := by
  constructor
  · rintro h item hitem day hday ⟨hbegun, hgoes⟩
    have hover := (h.overdue item hitem day hday).1 ((isOverdue_of_dueDay hday).2 hbegun)
    exact absurd hover (not_le.2 hgoes)
  · intro h
    refine ⟨fun signal hsignal => ?_, fun signal hsignal entries hentries entry hentry => ?_,
      fun item hitem day hday => ?_, fun item _ => isStale_iff, fun later hlater => ⟨?_, ?_⟩⟩
    · obtain ⟨flag, hsome, hrefers, hlookup⟩ :=
        @flagged_itemSignals _ _ memberWorkloads _ _ hsignal
      exact ⟨_, hlookup, forall₂_take_filterMap hsome hrefers 15 _⟩
    · obtain ⟨flag, -, hrefers, hlookup⟩ :=
        @flagged_itemSignals _ _ memberWorkloads _ _ hsignal
      rw [hlookup, Option.some_inj, Json.arr.injEq] at hentries
      have hmem : entry ∈ (unclosedItems backlogItems).filterMap flag := by
        rw [← List.map_injective_iff.2 (fun _ _ => Json.obj.inj) hentries] at hentry
        exact List.mem_of_mem_take hentry
      obtain ⟨item, hitem, hflag⟩ := List.mem_filterMap.1 hmem
      have hunclosed : isClosed item = false := by
        simpa using (List.mem_filter.1 hitem).2
      rw [textField_status_of_refers (hrefers item entry hflag)]
      exact of_decide_eq_false hunclosed
    · rw [isOverdue_of_dueDay hday]
      have hday' := h item hitem day hday
      constructor
      · intro hbegun
        by_contra hgoes
        exact hday' ⟨hbegun, not_le.1 hgoes⟩
      · intro hpast
        refine lt_of_lt_of_le ?_ hpast
        rw [add_mul, one_mul]
        exact lt_add_of_pos_right _ (by decide)
    · refine sublist_filter_of_imp (fun item hitem => ?_) _
      obtain ⟨date, hdate, hlong⟩ := isStale_iff.1 hitem
      exact isStale_iff.2 ⟨date, hdate, hlong.trans_le (sub_le_sub_right hlater date)⟩
    · refine sublist_filter_of_imp (fun item hitem => ?_) _
      obtain ⟨date, hdate, hpast⟩ := isOverdue_iff.1 hitem
      exact isOverdue_iff.2 ⟨date, hdate, hpast.trans_le hlater⟩

/-- One date, which both readers of dates know. -/
def june11 : IsoFormat where
  fromisoformat text := if text = "2026-06-11" then some (20615 * DAY) else none
  rejects text hlength := if_neg (by rintro rfl; exact absurd hlength (by decide))

def june11Date : DateFormat june11 where
  fromisoformat text := if text = "2026-06-11" then some 20615 else none
  midnight text day h := by
    by_cases htext : text = "2026-06-11"
    · rw [if_pos htext, Option.some_inj] at h
      rw [← h]
      exact if_pos htext
    · rw [if_neg htext] at h
      cases h

def dueItem : Fields :=
  [("itemId", .str "1"), ("status", .str "todo"), ("dueDate", .str "2026-06-11")]

/-- At noon of its due day the item counts as overdue. -/
theorem due_day_counts_as_overdue :
    ¬∀ (iso : IsoFormat) (dates : DateFormat iso) (currentTime : CurrentTime)
        (backlogItems memberWorkloads : List Json),
      MatchesCalendar iso dates currentTime backlogItems memberWorkloads := by
  intro h
  have hover := ((h june11 june11Date ⟨20615 * DAY + DAY / 2, "2026-06-11T12:00:00+00:00"⟩
    [.obj dueItem] []).overdue dueItem (List.mem_singleton_self dueItem) 20615 (by decide)).1
      (by decide)
  exact absurd hover (by decide)

end PrismAgent
