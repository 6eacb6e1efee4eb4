import Mathlib.Data.List.DropRight
import PrismAgent.Backlog.Views
import PrismAgent.Domain.Backlog

/-!
# The signals of a hydrated backlog

The hydrated backlog holds views of a project's open items, and no closed item. The signals
that are computed from it are those of the whole project if and only if no closed item has a
child that is not closed, the items of unknown status are unremarkable, and the views of the
open items show when they were last changed and that they are described.
-/

namespace PrismAgent

open PrismApiClient UpdateWorkItemsBulkTool

section Views

variable {item : Fields} {key : String}

theorem getField_backlogWorkItem (h : key ∈ WORK_ITEM_CONTEXT_FIELDS) :
    getField (backlogWorkItem item) key = getField item key := by
  unfold getField
  rw [lookup_backlogWorkItem h, slimWorkItem, lookup_presentFields, if_pos h]
  cases item.lookup key with
  | none => rfl
  | some value => cases value <;> rfl

/-- The text that the backlog shows of a date. -/
def shownDate (value : Json) : Json := if value.isNull then .null else .str value.toStr

theorem getField_backlogWorkItem_date (h : key ∈ BACKLOG_EXTRA_FIELDS) :
    getField (backlogWorkItem item) key = shownDate (getField item key) := by
  have hslim : key ∉ WORK_ITEM_CONTEXT_FIELDS := by
    revert key
    decide
  have hdescription : key ≠ "description" := by
    revert key
    decide
  unfold getField backlogWorkItem slimWorkItem
  dsimp only
  rw [Dict.lookup_append, Dict.lookup_append, lookup_extraFields, lookup_presentFields,
    lookup_presentFields, if_neg hslim, if_pos h, List.lookup_cons,
    beq_eq_false_iff_ne.2 hdescription]
  cases item.lookup key with
  | none => rfl
  | some value => cases value <;> rfl

theorem itemRef_backlogWorkItem : itemRef (backlogWorkItem item) = itemRef item := by
  unfold itemRef
  rw [getField_backlogWorkItem (by decide), getField_backlogWorkItem (by decide),
    getField_backlogWorkItem (by decide)]

theorem textField_backlogWorkItem (h : key ∈ WORK_ITEM_CONTEXT_FIELDS) :
    textField (backlogWorkItem item) key "" = textField item key "" := by
  unfold textField
  rw [truthyField_backlogWorkItem h]

theorem isClosed_backlogWorkItem : isClosed (backlogWorkItem item) = isClosed item := by
  unfold isClosed
  rw [textField_backlogWorkItem (by decide)]

theorem truthyField_eq : truthyField item key =
    if (getField item key).truthy then some (getField item key) else none := by
  unfold truthyField getField
  cases item.lookup key with
  | none => rfl
  | some value => cases htruthy : value.truthy <;> simp [htruthy]

theorem itemIdOf_eq_of_itemRef {item' : Fields} (h : itemRef item = itemRef item') :
    itemIdOf item = itemIdOf item' := by
  have hid : getField item "itemId" = getField item' "itemId" :=
    congrArg Prod.snd (List.cons.inj h).1
  unfold itemIdOf
  rw [truthyField_eq, truthyField_eq, hid]

end Views

section Dates

variable (iso : IsoFormat)

/-- The text of a date that counts as missing is no date. -/
theorem fromisoformat_of_not_truthy {value : Json} (h : value.truthy = false)
    (hnull : value.isNull = false) :
    iso.fromisoformat (replaceZulu (strip value.toStr)) = none := by
  apply iso.rejects
  cases value with
  | null => cases hnull
  | bool b =>
      subst h
      decide
  | int n =>
      have hzero : n = 0 := by simpa [Json.truthy] using h
      subst hzero
      decide
  | float repr =>
      have hrepr : repr = "0.0" ∨ repr = "-0.0" := by
        simpa [Json.truthy, Classical.or_iff_not_imp_left] using h
      rcases hrepr with rfl | rfl <;> decide
  | str s =>
      have hempty : s = "" := by simpa [Json.truthy] using h
      subst hempty
      decide
  | arr items =>
      have hempty : items = [] := by simpa [Json.truthy] using h
      subst hempty
      decide
  | obj fields =>
      have hempty : fields = [] := by simpa [Json.truthy] using h
      subst hempty
      decide

/-- The text that is shown of a date is as good as the date. -/
theorem parseDatetime_shownDate (value : Json) :
    parseDatetime iso (shownDate value) = parseDatetime iso value := by
  have hempty : iso.fromisoformat (replaceZulu (strip "")) = none := iso.rejects _ (by decide)
  unfold shownDate parseDatetime
  cases hnull : value.isNull with
  | true =>
      cases value with
      | null => rfl
      | _ => cases hnull
  | false =>
      rw [if_neg Bool.false_ne_true]
      by_cases htext : value.toStr = ""
      · rw [htext, hempty, ite_self]
        rfl
      · rw [if_pos (by simpa [Json.truthy] using htext)]
        cases htruthy : value.truthy with
        | true => rfl
        | false =>
            have hnone := fromisoformat_of_not_truthy iso htruthy hnull
            exact hnone

end Dates

section Items

/-- The item is in one of the statuses that are fetched. -/
def hasStatus (status : String) (item : Fields) : Bool :=
  (item.lookup "status").bind Json.asStr? = some status

def isOpen (item : Fields) : Bool := OPEN_STATUSES.any fun status => hasStatus status item

/-- When the item was last changed can be read off what the backlog shows, or its creation is
not long ago. -/
def ShowsChange (iso : IsoFormat) (now : ℤ) (item : Fields) : Prop :=
  (getField item "statusChangedAt").isNull = true ∨
    (getField item "statusChangedAt").truthy =
        decide ((getField item "statusChangedAt").toStr ≠ "") ∨
    (parseDatetime iso (getField item "createdAt")).filter (isLongAgo now) = none

/-- A real description is not blank where the backlog shows it. -/
def ShowsDescription (item : Fields) : Prop :=
  isReal (textField item "description" "") = true →
    ∃ c ∈ ((strip (textField item "description" "")).toList.take
        BACKLOG_DESCRIPTION_EXCERPT_LENGTH).drop (THIN_DESCRIPTION_LENGTH - 1),
      isWhiteSpace c = false

variable {iso : IsoFormat} {now : ℤ} {item : Fields}

theorem lookup_of_hasStatus {status : String} (h : hasStatus status item = true) :
    item.lookup "status" = some (.str status) := by
  unfold hasStatus at h
  rw [decide_eq_true_eq] at h
  obtain ⟨value, hvalue, htext⟩ := Option.bind_eq_some_iff.1 h
  cases value with
  | str text =>
      cases htext
      exact hvalue
  | _ => cases htext

theorem isOpen_iff : isOpen item = true ↔ ∃ status ∈ OPEN_STATUSES, hasStatus status item = true :=
  List.any_eq_true

theorem isClosed_of_isOpen (h : isOpen item = true) : isClosed item = false := by
  obtain ⟨status, hstatus, hitem⟩ := isOpen_iff.1 h
  unfold isClosed
  rw [textField_of_lookup (lookup_of_hasStatus hitem)]
  clear hitem
  revert status
  decide

/-- What is left of a list without its trailing `p`s is longer than `n` if another element
stands behind the first `n`. -/
theorem lt_length_rdropWhile_iff {α : Type} {p : α → Bool} {xs : List α} {n : ℕ} :
    n < (xs.rdropWhile p).length ↔ ∃ x ∈ xs.drop n, p x = false := by
  induction xs using List.reverseRecOn with
  | nil => simp
  | append_singleton xs x ih =>
      cases hx : p x with
      | true =>
          have hdrop : ∀ y ∈ xs.drop n, y ∈ (xs ++ [x]).drop n := fun y hy => by
            rw [List.drop_append]
            exact List.mem_append_left _ hy
          rw [List.rdropWhile_concat_pos _ _ _ hx, ih]
          constructor
          · rintro ⟨y, hy, hpy⟩
            exact ⟨y, hdrop y hy, hpy⟩
          · rintro ⟨y, hy, hpy⟩
            rw [List.drop_append] at hy
            rcases List.mem_append.1 hy with hy | hy
            · exact ⟨y, hy, hpy⟩
            · obtain rfl := List.mem_singleton.1 (List.mem_of_mem_drop hy)
              rw [hx] at hpy
              cases hpy
      | false =>
          rw [List.rdropWhile_concat_neg _ _ _ (by simp [hx]), List.length_append]
          constructor
          · intro hlt
            refine ⟨x, ?_, hx⟩
            have hle : n ≤ xs.length := Nat.lt_succ_iff.1 hlt
            rw [List.drop_append_of_le_length hle]
            exact List.mem_append_right _ List.mem_cons_self
          · rintro ⟨y, hy, -⟩
            have hpos := List.length_pos_of_mem hy
            rw [List.length_drop, List.length_append] at hpos
            omega

/-- A part from the start of a stripped text starts with no white space. -/
theorem dropWhile_take_strip (s : String) (n : ℕ) :
    ((strip s).toList.take n).dropWhile isWhiteSpace = (strip s).toList.take n := by
  have htext : (strip s).toList <+: s.toList.dropWhile isWhiteSpace := by
    unfold strip
    rw [String.toList_ofList]
    have hdropped := List.rdropWhile_prefix isWhiteSpace (s.toList.dropWhile isWhiteSpace)
    exact hdropped
  have hfirst := List.take_prefix n (strip s).toList
  have hpart := hfirst.trans htext
  cases htake : (strip s).toList.take n with
  | nil => rfl
  | cons c cs =>
      rw [htake] at hpart
      obtain ⟨rest, hrest⟩ := hpart
      have hne : s.toList.dropWhile isWhiteSpace ≠ [] := by
        rw [← hrest]
        exact List.cons_ne_nil _ _
      have hhead := List.head_dropWhile_not isWhiteSpace hne
      simp only [← hrest, List.cons_append, List.head_cons] at hhead
      rw [List.dropWhile_cons, hhead, if_neg Bool.false_ne_true]

/-- The backlog shows of a real description that it is one, if it shows more than a blank
behind its beginning. -/
theorem isReal_excerpt_iff {description : String} :
    isReal (excerpt description) = true ↔
      ∃ c ∈ ((strip description).toList.take BACKLOG_DESCRIPTION_EXCERPT_LENGTH).drop
        (THIN_DESCRIPTION_LENGTH - 1), isWhiteSpace c = false := by
  rw [← lt_length_rdropWhile_iff, isReal, decide_eq_true_eq, excerpt, strip,
    String.length_ofList, String.toList_ofList, dropWhile_take_strip]
  rfl

/-- The beginning of a description is no longer than the description. -/
theorem isReal_of_isReal_excerpt {description : String} (h : isReal (excerpt description) = true) :
    isReal description = true := by
  unfold isReal at h ⊢
  rw [decide_eq_true_eq] at h ⊢
  refine h.trans ((length_strip_le _).trans ?_)
  rw [excerpt, String.length_ofList, ← String.length_toList]
  exact List.length_take_le' _ _

theorem isThin_eq : isThin item = !isReal (textField item "description" "") := by
  unfold isThin isReal THIN_DESCRIPTION_LENGTH
  rw [← decide_not]
  exact decide_eq_decide.2 Nat.not_le.symm

end Items

/-- The work items of a project: each has an id of its own, and not too many are open. -/
structure Project where
  items : List Fields
  distinct : (items.map itemIdOf).Nodup
  fewOpen : (items.filter isOpen).length ≤ PROJECT_WORK_ITEMS_CONTEXT_LIMIT

section Flags

variable {project : Project} {item item' entry : Fields}

theorem Project.eq_of_itemIdOf (hitem : item ∈ project.items) (hitem' : item' ∈ project.items)
    (h : itemIdOf item = itemIdOf item') : item = item' :=
  List.inj_on_of_nodup_map project.distinct hitem hitem' h

/-- Every entry of the flag names its item. -/
def Refers (flag : Fields → Option Fields) : Prop :=
  ∀ item entry, flag item = some entry → entry.take 3 = itemRef item

theorem refers_staleEntry (iso : IsoFormat) (now : ℤ) : Refers (staleEntry iso now) := by
  intro item entry h
  obtain ⟨date, -, rfl⟩ := Option.map_eq_some_iff.1 h
  rfl

theorem refers_overdueEntry (iso : IsoFormat) (now : ℤ) : Refers (overdueEntry iso now) := by
  intro item entry h
  unfold overdueEntry at h
  split at h <;> cases h
  rfl

theorem refers_unassignedUrgentEntry : Refers unassignedUrgentEntry := by
  intro item entry h
  unfold unassignedUrgentEntry at h
  split at h <;> cases h
  rfl

theorem refers_thinDescriptionEntry : Refers thinDescriptionEntry := by
  intro item entry h
  unfold thinDescriptionEntry at h
  split at h <;> cases h
  rfl

/-- The entries of a flag for the items of a list that are not closed. -/
def entriesOf (flag : Fields → Option Fields) (items : List Fields) : List Fields :=
  (items.filter fun item => !isClosed item).filterMap flag

theorem mem_entriesOf {flag : Fields → Option Fields} {items : List Fields} :
    entry ∈ entriesOf flag items ↔
      ∃ item ∈ items, isClosed item = false ∧ flag item = some entry := by
  simp [entriesOf, and_assoc]

/-- The list holds the views of the open items. -/
def ShowsOpen (project : Project) (hydrated : List Fields) : Prop :=
  ∀ view, view ∈ hydrated ↔ ∃ item ∈ project.items, isOpen item = true ∧
    view = backlogWorkItem item

variable {hydrated : List Fields}

theorem ShowsOpen.mem_entriesOf (h : ShowsOpen project hydrated)
    {flag : Fields → Option Fields} :
    entry ∈ entriesOf flag hydrated ↔
      ∃ item ∈ project.items, isOpen item = true ∧ flag (backlogWorkItem item) = some entry := by
  rw [PrismAgent.mem_entriesOf]
  constructor
  · rintro ⟨view, hview, -, hentry⟩
    obtain ⟨item, hitem, hopen, rfl⟩ := (h view).1 hview
    exact ⟨item, hitem, hopen, hentry⟩
  · rintro ⟨item, hitem, hopen, hentry⟩
    refine ⟨_, (h _).2 ⟨item, hitem, hopen, rfl⟩, ?_, hentry⟩
    rw [isClosed_backlogWorkItem]
    exact isClosed_of_isOpen hopen

/-- The flag says of an open item's view what it says of the item, and nothing of an item that
is neither open nor closed. -/
def Keeps (flag : Fields → Option Fields) (item : Fields) : Prop :=
  if isOpen item then flag (backlogWorkItem item) = flag item else flag item = none

/-- A flag has the same entries if and only if it keeps what it says of every item. -/
theorem same_entries_iff (h : ShowsOpen project hydrated) {flag : Fields → Option Fields}
    (hrefers : Refers flag) :
    (∀ entry, entry ∈ entriesOf flag hydrated ↔ entry ∈ entriesOf flag project.items) ↔
      ∀ item ∈ project.items, isClosed item = false → Keeps flag item := by
  have hsame : ∀ item ∈ project.items, ∀ item' ∈ project.items, ∀ entry,
      (flag item = some entry ∨ flag (backlogWorkItem item) = some entry) →
      (flag item' = some entry ∨ flag (backlogWorkItem item') = some entry) → item = item' := by
    intro item hitem item' hitem' entry hentry hentry'
    have href : entry.take 3 = itemRef item := by
      rcases hentry with hentry | hentry
      · exact hrefers _ _ hentry
      · exact (hrefers _ _ hentry).trans itemRef_backlogWorkItem
    have href' : entry.take 3 = itemRef item' := by
      rcases hentry' with hentry' | hentry'
      · exact hrefers _ _ hentry'
      · exact (hrefers _ _ hentry').trans itemRef_backlogWorkItem
    exact project.eq_of_itemIdOf hitem hitem' (itemIdOf_eq_of_itemRef (href.symm.trans href'))
  constructor
  · intro hall item hitem hclosed
    unfold Keeps
    split
    next hopen =>
      refine Option.ext fun entry => ⟨fun hentry => ?_, fun hentry => ?_⟩
      · obtain ⟨item', hitem', -, hentry'⟩ := mem_entriesOf.1
          ((hall entry).1 (h.mem_entriesOf.2 ⟨item, hitem, hopen, hentry⟩))
        rwa [hsame item hitem item' hitem' entry (.inr hentry) (.inl hentry')]
      · obtain ⟨item', hitem', -, hentry'⟩ := h.mem_entriesOf.1
          ((hall entry).2 (mem_entriesOf.2 ⟨item, hitem, hclosed, hentry⟩))
        rwa [hsame item hitem item' hitem' entry (.inl hentry) (.inr hentry')]
    next hopen =>
      refine Option.eq_none_iff_forall_ne_some.2 fun entry hentry => hopen ?_
      obtain ⟨item', hitem', hopen', hentry'⟩ := h.mem_entriesOf.1
        ((hall entry).2 (mem_entriesOf.2 ⟨item, hitem, hclosed, hentry⟩))
      rwa [hsame item hitem item' hitem' entry (.inl hentry) (.inr hentry')]
  · intro hkeeps entry
    rw [h.mem_entriesOf, mem_entriesOf]
    constructor
    · rintro ⟨item, hitem, hopen, hentry⟩
      have hclosed := isClosed_of_isOpen hopen
      have hkept := hkeeps item hitem hclosed
      rw [Keeps, if_pos hopen] at hkept
      exact ⟨item, hitem, hclosed, hkept.symm.trans hentry⟩
    · rintro ⟨item, hitem, hclosed, hentry⟩
      have hkept := hkeeps item hitem hclosed
      unfold Keeps at hkept
      split at hkept
      next hopen => exact ⟨item, hitem, hopen, hkept.trans hentry⟩
      next =>
        rw [hentry] at hkept
        cases hkept

theorem keeps_overdueEntry_iff (iso : IsoFormat) (now : ℤ) :
    Keeps (overdueEntry iso now) item ↔ isOpen item = false → isOverdue iso now item = false := by
  have hview : overdueEntry iso now (backlogWorkItem item) = overdueEntry iso now item := by
    unfold overdueEntry isOverdue
    rw [itemRef_backlogWorkItem, getField_backlogWorkItem (by decide)]
  unfold Keeps
  cases isOpen item with
  | true => simp [hview]
  | false => simp [overdueEntry]

theorem keeps_unassignedUrgentEntry_iff :
    Keeps unassignedUrgentEntry item ↔
      isOpen item = false → isUnassignedUrgent item = false := by
  have hview : unassignedUrgentEntry (backlogWorkItem item) = unassignedUrgentEntry item := by
    unfold unassignedUrgentEntry isUnassignedUrgent
    rw [itemRef_backlogWorkItem, textField_backlogWorkItem (by decide),
      getField_backlogWorkItem (by decide), getField_backlogWorkItem (by decide)]
  unfold Keeps
  cases isOpen item with
  | true => simp [hview]
  | false => simp [unassignedUrgentEntry]

theorem keeps_thinDescriptionEntry_iff :
    Keeps thinDescriptionEntry item ↔
      if isOpen item then ShowsDescription item else isThin item = false := by
  unfold Keeps
  cases isOpen item with
  | false => simp [thinDescriptionEntry]
  | true =>
      unfold thinDescriptionEntry
      rw [if_pos rfl, if_pos rfl, itemRef_backlogWorkItem, isThin_eq, isThin_eq,
        textField_backlogWorkItem_description, ShowsDescription, ← isReal_excerpt_iff]
      have hreal : isReal (excerpt (textField item "description" "")) = true →
          isReal (textField item "description" "") = true := isReal_of_isReal_excerpt
      cases hdescription : isReal (textField item "description" "") <;>
        cases hexcerpt : isReal (excerpt (textField item "description" "")) <;> simp_all

/-- The date that makes an item stale, if one does. -/
def staleDate (iso : IsoFormat) (now : ℤ) (item : Fields) : Option ℤ :=
  (parseDatetime iso (changedAt item)).filter (isLongAgo now)

theorem staleEntry_eq (iso : IsoFormat) (now : ℤ) : staleEntry iso now item =
    (staleDate iso now item).map fun date =>
      itemRef item ++ [("daysIdle", .int ((now - date) / DAY))] := rfl

theorem parseDatetime_of_toStr (iso : IsoFormat) {value : Json} (h : value.toStr = "") :
    parseDatetime iso value = none := by
  have hempty : iso.fromisoformat (replaceZulu (strip "")) = none := iso.rejects _ (by decide)
  unfold parseDatetime
  rw [h, hempty, ite_self]

theorem truthy_shownDate (value : Json) :
    (shownDate value).truthy = (!value.isNull && decide (value.toStr ≠ "")) := by
  unfold shownDate
  cases value.isNull <;> simp [Json.truthy]

/-- What the backlog shows makes an item stale exactly if the item is, or if neither of its
dates does. -/
theorem staleDate_backlogWorkItem (iso : IsoFormat) (now : ℤ) (item : Fields) :
    (staleDate iso now (backlogWorkItem item) = staleDate iso now item ∧ ShowsChange iso now item) ∨
    (¬ (staleDate iso now (backlogWorkItem item)).isSome = (staleDate iso now item).isSome ∧
      ¬ ShowsChange iso now item) := by
  have hview : changedAt (backlogWorkItem item) =
      if (shownDate (getField item "statusChangedAt")).truthy
        then shownDate (getField item "statusChangedAt")
      else shownDate (getField item "createdAt") := by
    unfold changedAt
    rw [getField_backlogWorkItem_date (by decide), getField_backlogWorkItem_date (by decide)]
  unfold staleDate ShowsChange
  rw [hview, truthy_shownDate]
  unfold changedAt
  generalize getField item "createdAt" = created
  generalize getField item "statusChangedAt" = changed
  cases hnull : changed.isNull with
  | true =>
      have hmissing : changed.truthy = false := by
        cases changed with
        | null => rfl
        | _ => cases hnull
      rw [hmissing]
      exact .inl ⟨congrArg _ (parseDatetime_shownDate iso created), .inl rfl⟩
  | false =>
      rw [Bool.not_false, Bool.true_and]
      cases htruthy : changed.truthy <;> cases htext : decide (changed.toStr ≠ "")
      · exact .inl ⟨congrArg _ (parseDatetime_shownDate iso created), .inr (.inl rfl)⟩
      · have hnone : parseDatetime iso (shownDate changed) = none := by
          rw [parseDatetime_shownDate, parseDatetime, htruthy]
          rfl
        rw [if_pos rfl, if_neg Bool.false_ne_true, hnone]
        cases hcreated : (parseDatetime iso created).filter (isLongAgo now) with
        | none => exact .inl ⟨rfl, .inr (.inr rfl)⟩
        | some date => exact .inr ⟨by simp, by simp⟩
      · have hnone : parseDatetime iso changed = none :=
          parseDatetime_of_toStr iso (by simpa using htext)
        rw [if_pos rfl, if_neg Bool.false_ne_true, hnone, parseDatetime_shownDate]
        cases hcreated : (parseDatetime iso created).filter (isLongAgo now) with
        | none => exact .inl ⟨rfl, .inr (.inr rfl)⟩
        | some date => exact .inr ⟨by simp, by simp⟩
      · exact .inl ⟨congrArg _ (parseDatetime_shownDate iso changed), .inr (.inl rfl)⟩

theorem keeps_staleEntry_iff (iso : IsoFormat) (now : ℤ) :
    Keeps (staleEntry iso now) item ↔
      if isOpen item then ShowsChange iso now item else staleDate iso now item = none := by
  unfold Keeps
  rw [staleEntry_eq, staleEntry_eq, itemRef_backlogWorkItem]
  cases isOpen item with
  | false => simp
  | true =>
      rw [if_pos rfl, if_pos rfl]
      rcases staleDate_backlogWorkItem iso now item with ⟨hsame, hshows⟩ | ⟨hne, hshows⟩
      · rw [hsame]
        exact iff_of_true rfl hshows
      · refine iff_of_false (fun heq => hne ?_) hshows
        have hsome := congrArg Option.isSome heq
        rwa [Option.isSome_map, Option.isSome_map] at hsome

/-- The items that are looked up by a key are those with this id. -/
theorem lookup_itemsById {key : String} :
    (itemsById project.items).lookup key = some item ↔
      item ∈ project.items ∧ itemIdOf item = some key := by
  have hpairs : project.items.filterMap (fun item =>
      (truthyField item "itemId").map fun itemId => (itemId.toStr, item)) =
        project.items.filterMap fun item => (itemIdOf item).map fun itemId => (itemId, item) := by
    simp only [itemIdOf, Option.map_map]
    rfl
  have hkeys : (Dict.keys (project.items.filterMap fun item =>
      (itemIdOf item).map fun itemId => (itemId, item))).Nodup := by
    have hmap : Dict.keys (project.items.filterMap fun item =>
        (itemIdOf item).map fun itemId => (itemId, item)) =
          (project.items.map itemIdOf).filterMap id := by
      rw [Dict.keys, List.map_filterMap, List.filterMap_map]
      refine List.filterMap_congr fun item _ => ?_
      rw [Function.comp_apply, id]
      cases itemIdOf item <;> rfl
    rw [hmap]
    refine project.distinct.filterMap fun a b c ha hb => ?_
    rw [Option.mem_def] at ha hb
    exact ha.trans hb.symm
  unfold itemsById
  rw [hpairs, Dict.ofPairs, Dict.lookup_merge hkeys, List.lookup_nil, Option.or_none,
    Dict.lookup_eq_some_iff hkeys, List.mem_filterMap]
  constructor
  · rintro ⟨item', hitem', hentry⟩
    obtain ⟨itemId, hid, hpair⟩ := Option.map_eq_some_iff.1 hentry
    cases hpair
    exact ⟨hitem', hid⟩
  · rintro ⟨hitem, hid⟩
    exact ⟨item, hitem, by rw [hid]; rfl⟩

/-- Among open items no parent is closed. -/
theorem parentMismatch_hydrated (h : ShowsOpen project hydrated) :
    entriesOf (parentMismatchEntry · (itemsById hydrated)) hydrated = [] := by
  have hopen : ∀ key parent, (itemsById hydrated).lookup key = some parent →
      isClosed parent = false := by
    intro key parent hparent
    obtain ⟨before, after, hsplit, -⟩ := List.lookup_eq_some_iff.1 hparent
    have hmem : (key, parent) ∈ itemsById hydrated := by
      rw [hsplit]
      exact List.mem_append_right before List.mem_cons_self
    obtain ⟨view, hview, hentry⟩ := List.mem_filterMap.1 (Dict.mem_of_mem_ofPairs hmem)
    obtain ⟨_, -, hpair⟩ := Option.map_eq_some_iff.1 hentry
    cases hpair
    obtain ⟨item, -, hitem, rfl⟩ := (h _).1 hview
    rw [isClosed_backlogWorkItem]
    exact isClosed_of_isOpen hitem
  refine List.eq_nil_iff_forall_not_mem.2 fun entry hentry => ?_
  obtain ⟨view, -, -, hmismatch⟩ := mem_entriesOf.1 hentry
  obtain ⟨parent, hparent, -⟩ := Option.map_eq_some_iff.1 hmismatch
  obtain ⟨hlookup, hclosed⟩ := Option.filter_eq_some_iff.1 hparent
  rw [hopen _ _ hlookup] at hclosed
  cases hclosed

/-- No item that is not closed has a closed parent. -/
def NoClosedParent (items : List Fields) : Prop :=
  ∀ child ∈ items, isClosed child = false → ∀ parent ∈ items,
    itemIdOf parent = some (parentKey child) → isClosed parent = false

theorem parentMismatch_eq_nil_iff :
    entriesOf (parentMismatchEntry · (itemsById project.items)) project.items = [] ↔
      NoClosedParent project.items := by
  rw [List.eq_nil_iff_forall_not_mem]
  constructor
  · intro h child hchild hopen parent hparent hid
    by_contra hclosed
    rw [Bool.not_eq_false] at hclosed
    have hlookup := lookup_itemsById.2 ⟨hparent, hid⟩
    refine h _ (mem_entriesOf.2 ⟨child, hchild, hopen, Option.map_eq_some_iff.2 ⟨parent, ?_, rfl⟩⟩)
    exact Option.filter_eq_some_iff.2 ⟨hlookup, hclosed⟩
  · intro h entry hentry
    obtain ⟨child, hchild, hopen, hmismatch⟩ := mem_entriesOf.1 hentry
    obtain ⟨parent, hparent, -⟩ := Option.map_eq_some_iff.1 hmismatch
    obtain ⟨hlookup, hclosed⟩ := Option.filter_eq_some_iff.1 hparent
    obtain ⟨hparent, hid⟩ := lookup_itemsById.1 hlookup
    rw [h child hchild hopen parent hparent hid] at hclosed
    cases hclosed

end Flags

section Hydration

variable {api : ContextApi} {event : RuntimeEvent} {explicitValue : Json} {project : Project}

/-- The payload lists no backlog, and the API answers a search for a status with the items in
that status, as many as were asked for. -/
structure Serves (api : ContextApi) (event : RuntimeEvent) (explicitValue : Json)
    (project : Project) : Prop where
  configured : api.configured = true
  unlisted : extractItems explicitValue = []
  served : ∃ projectId, projectOf event = some projectId ∧ ∀ (status : String) (limit : ℕ),
    ∃ (result : Fields) (fetched : List Fields), api.searchWorkItems projectId
        [("status", .str status), ("limit", .int limit)] = .ok result ∧
      result.lookup "items" = some (.arr ((fetched.take limit).map .obj)) ∧
      fetched.Perm (project.items.filter (hasStatus status))

theorem viewsOf_map_obj (view : Fields → Fields) (items : List Fields) :
    viewsOf view (items.map .obj) = items.map fun item => .obj (view item) := by
  induction items with
  | nil => rfl
  | cons item items ih => exact congrArg (Json.obj (view item) :: ·) ih

/-- As long as the limit suffices, the loop fetches the items of every status. -/
theorem backlogItems_eq (h : Serves api event explicitValue project) {projectId : String}
    (hproject : projectOf event = some projectId) (statuses : List String) :
    ∀ shown : List Json, shown.length +
        (statuses.flatMap fun status => project.items.filter (hasStatus status)).length ≤
          PROJECT_WORK_ITEMS_CONTEXT_LIMIT →
      ∃ fetched : List Fields,
        backlogItems api projectId statuses shown =
          shown ++ fetched.map (fun item => .obj (backlogWorkItem item)) ∧
        fetched.Perm (statuses.flatMap fun status => project.items.filter (hasStatus status)) := by
  obtain ⟨_, hproject', hserved⟩ := h.served
  cases hproject.symm.trans hproject'
  induction statuses with
  | nil => exact fun shown _ => ⟨[], (List.append_nil shown).symm, .nil⟩
  | cons status statuses ih =>
      intro shown hfew
      rw [List.flatMap_cons, List.length_append] at hfew
      unfold backlogItems
      split
      next hfull =>
        have hnone : (status :: statuses).flatMap
            (fun status => project.items.filter (hasStatus status)) = [] := by
          rw [List.flatMap_cons, ← List.length_eq_zero_iff, List.length_append]
          omega
        exact ⟨[], (List.append_nil shown).symm, by rw [hnone]⟩
      next hroom =>
        obtain ⟨result, found, hresult, hitems, hperm⟩ :=
          hserved status (PROJECT_WORK_ITEMS_CONTEXT_LIMIT - shown.length)
        have htake : found.take (PROJECT_WORK_ITEMS_CONTEXT_LIMIT - shown.length) = found := by
          apply List.take_of_length_le
          rw [hperm.length_eq]
          omega
        rw [htake] at hitems
        rw [hresult]
        dsimp only
        rw [hitems]
        dsimp only
        rw [viewsOf_map_obj]
        obtain ⟨fetched, heq, hrest⟩ := ih
          (shown ++ found.map fun item => Json.obj (backlogWorkItem item)) (by
            rw [List.length_append, List.length_map, hperm.length_eq]
            omega)
        refine ⟨found ++ fetched, ?_, ?_⟩
        · rw [heq, List.map_append, List.append_assoc]
        · rw [List.flatMap_cons]
          exact hperm.append hrest

/-- The statuses that are fetched tell the open items apart. -/
theorem length_fetched (items : List Fields) :
    (OPEN_STATUSES.flatMap fun status => items.filter (hasStatus status)).length =
      (items.filter isOpen).length := by
  induction items with
  | nil => rfl
  | cons item items ih =>
      simp only [OPEN_STATUSES, isOpen, List.flatMap_cons, List.flatMap_nil, List.append_nil,
        List.length_append, List.any_cons, List.any_nil, Bool.or_false, List.filter_cons] at ih ⊢
      have htodo : hasStatus "todo" item = true → hasStatus "in_progress" item = false ∧
          hasStatus "in_review" item = false := by
        intro h
        simp [hasStatus, lookup_of_hasStatus h, Json.asStr?]
      have hprogress :
          hasStatus "in_progress" item = true → hasStatus "in_review" item = false := by
        intro h
        simp [hasStatus, lookup_of_hasStatus h, Json.asStr?]
      cases h₁ : hasStatus "todo" item <;> cases h₂ : hasStatus "in_progress" item <;>
        cases h₃ : hasStatus "in_review" item <;> simp_all <;> omega

/-- The hydrated backlog. -/
def hydratedBacklog (api : ContextApi) (event : RuntimeEvent) (explicitValue : Json) :
    List Fields :=
  (backlogWorkItemsContext api event explicitValue).filterMap Json.asObj?

theorem showsOpen_hydratedBacklog (h : Serves api event explicitValue project) :
    ShowsOpen project (hydratedBacklog api event explicitValue) := by
  obtain ⟨projectId, hproject, -⟩ := h.served
  obtain ⟨fetched, heq, hperm⟩ := backlogItems_eq h hproject OPEN_STATUSES [] (by
    rw [length_fetched, List.length_nil, Nat.zero_add]
    exact project.fewOpen)
  have hcontext : hydratedBacklog api event explicitValue = fetched.map backlogWorkItem := by
    unfold hydratedBacklog backlogWorkItemsContext
    rw [h.unlisted, h.configured, hproject]
    change (backlogItems api projectId OPEN_STATUSES []).filterMap Json.asObj? = _
    have hobj : (Json.asObj? ∘ fun item => .obj (backlogWorkItem item)) =
        some ∘ backlogWorkItem := rfl
    rw [heq, List.nil_append, List.filterMap_map, hobj, List.filterMap_eq_map]
  intro view
  rw [hcontext, List.mem_map]
  constructor
  · rintro ⟨item, hitem, rfl⟩
    obtain ⟨status, hstatus, hfiltered⟩ := List.mem_flatMap.1 (hperm.mem_iff.1 hitem)
    obtain ⟨hmem, hhas⟩ := List.mem_filter.1 hfiltered
    exact ⟨item, hmem, isOpen_iff.2 ⟨status, hstatus, hhas⟩, rfl⟩
  · rintro ⟨item, hitem, hopen, rfl⟩
    obtain ⟨status, hstatus, hhas⟩ := isOpen_iff.1 hopen
    exact ⟨item, hperm.mem_iff.2 (List.mem_flatMap.2
      ⟨status, hstatus, List.mem_filter.2 ⟨hitem, hhas⟩⟩), rfl⟩

end Hydration

section Signals

/-- The same items are flagged. -/
structure SameFlags (hydrated full : BacklogSignals) : Prop where
  stale : ∀ entry, entry ∈ hydrated.stale ↔ entry ∈ full.stale
  overdue : ∀ entry, entry ∈ hydrated.overdue ↔ entry ∈ full.overdue
  unassignedUrgent : ∀ entry, entry ∈ hydrated.unassignedUrgent ↔ entry ∈ full.unassignedUrgent
  thinDescription : ∀ entry, entry ∈ hydrated.thinDescription ↔ entry ∈ full.thinDescription
  parentMismatch : ∀ entry, entry ∈ hydrated.parentMismatch ↔ entry ∈ full.parentMismatch

/-- No item that is not closed has a closed parent, no item of a status that is neither open nor
closed is remarkable, and of the open items the backlog shows what the signals go by. -/
structure KeepsSignals (iso : IsoFormat) (now : ℤ) (items : List Fields) : Prop where
  parents : NoClosedParent items
  unremarkable : ∀ item ∈ items, isClosed item = false → isOpen item = false →
    staleDate iso now item = none ∧ isOverdue iso now item = false ∧
      isUnassignedUrgent item = false ∧ isThin item = false
  changes : ∀ item ∈ items, isOpen item = true → ShowsChange iso now item
  descriptions : ∀ item ∈ items, isOpen item = true → ShowsDescription item

variable {api : ContextApi} {event : RuntimeEvent} {explicitValue : Json} {project : Project}

/-- The flags that go by one item only are kept where the item is kept. -/
theorem keeps_iff (iso : IsoFormat) (now : ℤ) (item : Fields) :
    (Keeps (staleEntry iso now) item ∧ Keeps (overdueEntry iso now) item ∧
        Keeps unassignedUrgentEntry item ∧ Keeps thinDescriptionEntry item) ↔
      (isOpen item = false → staleDate iso now item = none ∧ isOverdue iso now item = false ∧
        isUnassignedUrgent item = false ∧ isThin item = false) ∧
      (isOpen item = true → ShowsChange iso now item ∧ ShowsDescription item) := by
  rw [keeps_staleEntry_iff, keeps_overdueEntry_iff, keeps_unassignedUrgentEntry_iff,
    keeps_thinDescriptionEntry_iff]
  cases isOpen item <;> simp

/-- The closed parents of a project are lost, so there must be none. -/
theorem parentMismatch_same_iff (iso : IsoFormat) (now : ℤ)
    (h : Serves api event explicitValue project) :
    (∀ entry,
      entry ∈ (flaggedItems iso now (hydratedBacklog api event explicitValue)).parentMismatch ↔
        entry ∈ (flaggedItems iso now project.items).parentMismatch) ↔
      NoClosedParent project.items := by
  have hnil : (flaggedItems iso now (hydratedBacklog api event explicitValue)).parentMismatch =
      [] := parentMismatch_hydrated (showsOpen_hydratedBacklog h)
  rw [← parentMismatch_eq_nil_iff, hnil, List.eq_nil_iff_forall_not_mem]
  exact forall_congr' fun entry => by simp [flaggedItems, entriesOf]

/-- The signals of the hydrated backlog are those of the project exactly if the project keeps
them. -/
theorem hydrated_signals_same_iff (iso : IsoFormat) (now : ℤ)
    (h : Serves api event explicitValue project) :
    SameFlags (flaggedItems iso now (hydratedBacklog api event explicitValue))
        (flaggedItems iso now project.items) ↔
      KeepsSignals iso now project.items := by
  have hshows := showsOpen_hydratedBacklog h
  have hstale := same_entries_iff hshows (refers_staleEntry iso now)
  have hoverdue := same_entries_iff hshows (refers_overdueEntry iso now)
  have hurgent := same_entries_iff hshows refers_unassignedUrgentEntry
  have hthin := same_entries_iff hshows refers_thinDescriptionEntry
  have hmismatch := parentMismatch_same_iff iso now h
  constructor
  · intro hsame
    have hkeeps : ∀ item ∈ project.items, isClosed item = false → _ := fun item hitem hclosed =>
      (keeps_iff iso now item).1 ⟨hstale.1 hsame.stale item hitem hclosed,
        hoverdue.1 hsame.overdue item hitem hclosed,
        hurgent.1 hsame.unassignedUrgent item hitem hclosed,
        hthin.1 hsame.thinDescription item hitem hclosed⟩
    exact {
      parents := hmismatch.1 hsame.parentMismatch
      unremarkable := fun item hitem hclosed => (hkeeps item hitem hclosed).1
      changes := fun item hitem hopen =>
        ((hkeeps item hitem (isClosed_of_isOpen hopen)).2 hopen).1
      descriptions := fun item hitem hopen =>
        ((hkeeps item hitem (isClosed_of_isOpen hopen)).2 hopen).2 }
  · intro hkept
    have hkeeps := fun item hitem hclosed => (keeps_iff iso now item).2
      ⟨hkept.unremarkable item hitem hclosed,
        fun hopen => ⟨hkept.changes item hitem hopen, hkept.descriptions item hitem hopen⟩⟩
    exact {
      stale := hstale.2 fun item hitem hclosed => (hkeeps item hitem hclosed).1
      overdue := hoverdue.2 fun item hitem hclosed => (hkeeps item hitem hclosed).2.1
      unassignedUrgent := hurgent.2 fun item hitem hclosed => (hkeeps item hitem hclosed).2.2.1
      thinDescription := hthin.2 fun item hitem hclosed => (hkeeps item hitem hclosed).2.2.2
      parentMismatch := hmismatch.2 hkept.parents }

/-- An API that serves the items of one project. -/
def projectApi (items : List Fields) : ContextApi :=
  { configured := true
    searchWorkItems := fun _ query =>
      let inStatus := fun item => hasStatus (textField query "status" "") item
      let limit :=
        match getField query "limit" with
        | .int limit => limit.toNat
        | _ => 0
      .ok [("items", .arr (((items.filter inStatus).take limit).map .obj))]
    getWorkspaceSprints := fun _ => .ok []
    getWorkspaceMemberWorkloads := fun _ => .ok []
    getPullRequest := fun _ _ => .ok .null
    computeBacklogSignals := fun _ _ => .null }

/-- An open child of a closed parent. -/
def strayProject : Project where
  items :=
    [[("itemId", .str "parent"), ("status", .str "done")],
      [("itemId", .str "child"), ("parentId", .str "parent"), ("status", .str "todo")]]
  distinct := by decide
  fewOpen := by decide

def refineEvent : RuntimeEvent :=
  { eventId := "event", eventType := "refine_backlog", kind := .domain, workspaceId := "w",
    projectId := some "p" }

theorem serves_projectApi (project : Project) :
    Serves (projectApi project.items) refineEvent .null project where
  configured := rfl
  unlisted := rfl
  served := by
    refine ⟨"p", by decide, fun status limit => ⟨_, project.items.filter (hasStatus status),
      rfl, ?_, .refl _⟩⟩
    have hstatus : textField [("status", .str status), ("limit", .int limit)] "status" "" =
        status := textField_of_lookup rfl
    rw [hstatus]
    rfl

/-- All dates are rejected, where there is none to read. -/
def noDates : IsoFormat where
  fromisoformat _ := none
  rejects _ _ := rfl

/-- The hydrated backlog does not show that the child's parent is closed. -/
theorem closed_parent_lost :
    Serves (projectApi strayProject.items) refineEvent .null strayProject ∧
      ¬ SameFlags
        (flaggedItems noDates 0
          (hydratedBacklog (projectApi strayProject.items) refineEvent .null))
        (flaggedItems noDates 0 strayProject.items) := by
  have hserves := serves_projectApi strayProject
  refine ⟨hserves, fun hsame => ?_⟩
  have hparents := (parentMismatch_same_iff noDates 0 hserves).1 hsame.parentMismatch
  have hopen := hparents _ (List.mem_cons_of_mem _ List.mem_cons_self) (by decide) _
    List.mem_cons_self (by decide)
  exact absurd hopen (by decide)

/-- A date format of which one text is read. -/
def oneDate : IsoFormat where
  fromisoformat text := if text = "2026-06-01T00:00:00+00:00" then some 0 else none
  rejects text h := by
    refine if_neg ?_
    rintro rfl
    exact absurd h (by decide)

/-- An urgent item that nobody has touched for a month, its overdue child without a
description, and a closed item. -/
def keptProject : Project where
  items :=
    [[("itemId", .str "parent"), ("status", .str "todo"), ("priority", .str "urgent"),
        ("createdAt", .str "2026-06-01T00:00:00Z"),
        ("description", .str "Signing in fails every other time.")],
      [("itemId", .str "child"), ("parentId", .str "parent"), ("status", .str "in_progress"),
        ("dueDate", .str "2026-06-01T00:00:00Z")],
      [("itemId", .str "old"), ("status", .str "done")]]
  distinct := by decide
  fewOpen := by decide

/-- The hydrated backlog flags what the project does: one item is stale and urgent, the other
overdue and thin. -/
theorem keptProject_same_flags :
    SameFlags
        (flaggedItems oneDate (30 * DAY)
          (hydratedBacklog (projectApi keptProject.items) refineEvent .null))
        (flaggedItems oneDate (30 * DAY) keptProject.items) ∧
      (flaggedItems oneDate (30 * DAY) keptProject.items).stale.length = 1 ∧
      (flaggedItems oneDate (30 * DAY) keptProject.items).unassignedUrgent.length = 1 ∧
      (flaggedItems oneDate (30 * DAY) keptProject.items).overdue.length = 1 ∧
      (flaggedItems oneDate (30 * DAY) keptProject.items).thinDescription.length = 1 := by
  refine ⟨(hydrated_signals_same_iff oneDate (30 * DAY) (serves_projectApi keptProject)).2 ?_,
    by decide +kernel, by decide +kernel, by decide +kernel, by decide +kernel⟩
  constructor
  · unfold NoClosedParent
    decide +kernel
  · decide +kernel
  · unfold ShowsChange
    decide +kernel
  · intro item hitem _ hreal
    simp only [keptProject, List.mem_cons, List.not_mem_nil, or_false] at hitem
    rcases hitem with rfl | rfl | rfl
    · exact ⟨'.', by decide +kernel, by decide⟩
    · exact absurd hreal (by decide)
    · exact absurd hreal (by decide)

end Signals

end PrismAgent
