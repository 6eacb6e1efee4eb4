import PrismAgent.Backlog.Cleaning
import PrismAgent.Backlog.Whitelist
import PrismAgent.Text.IsoDate

/-!
# Normalized payloads

Normalization treats every field by itself: it fixes the value or drops the field. So what it
does to a payload follows from what it does to one value: whether the fixed value is one the
API accepts, whether it is fixed to itself, and whether an acceptable value is left alone.
-/

namespace PrismAgent

section Lists

/-- The texts that are read from a value, each once. -/
def cleanTexts (read : Json → Option String) (raw : Json) : List String :=
  Once.addAll [] ((namesOf raw).filterMap read)

/-- The texts that are read from a value as a list, if there are any. -/
def fixList (read : Json → Option String) (raw : Json) : Option Json :=
  if cleanTexts read raw = [] then none else some (.arr ((cleanTexts read raw).map .str))

/-- The label that is kept of a value. -/
def readLabel (label : Json) : Option String :=
  if String.ofList ((cleanText label).toList.take 30) = "" then none
  else some (String.ofList ((cleanText label).toList.take 30))

variable {read : Json → Option String} {raw value : Json} {names : List String}

theorem mem_cleanTexts_iff {text : String} :
    text ∈ cleanTexts read raw ↔ ∃ name ∈ namesOf raw, read name = some text := by
  rw [cleanTexts, Once.mem_addAll, List.mem_filterMap]
  simp

theorem nodup_cleanTexts : (cleanTexts read raw).Nodup := Once.nodup_addAll List.nodup_nil

theorem fixList_eq_some (h : fixList read raw = some value) :
    value = .arr ((cleanTexts read raw).map .str) ∧ cleanTexts read raw ≠ [] := by
  unfold fixList at h
  split at h
  · cases h
  next hne => exact ⟨(Option.some.inj h).symm, hne⟩

theorem cleanTexts_arr_eq_self_iff (hnodup : names.Nodup) :
    cleanTexts read (.arr (names.map .str)) = names ↔
      ∀ name ∈ names, read (.str name) = some name := by
  rw [cleanTexts, namesOf, List.filterMap_map]
  exact Once.addAll_filterMap_eq_self_iff hnodup

/-- A list of texts is fixed to itself where each of them is read as itself. -/
theorem fixList_arr_eq_some_iff (hne : names ≠ []) (hnodup : names.Nodup) :
    fixList read (.arr (names.map .str)) = some (.arr (names.map .str)) ↔
      ∀ name ∈ names, read (.str name) = some name := by
  rw [← cleanTexts_arr_eq_self_iff hnodup]
  constructor
  · intro h
    have hvalue := Json.arr.inj (fixList_eq_some h).1
    exact (List.map_injective_iff.2 (fun _ _ => Json.str.inj) hvalue).symm
  · intro h
    rw [fixList, h, if_neg hne]

/-- Fixing a list twice is fixing it once where every text that is read is read as itself. -/
theorem fixList_stable_iff :
    (∀ value, fixList read raw = some value → fixList read value = some value) ↔
      ∀ name ∈ namesOf raw, ∀ text, read name = some text → read (.str text) = some text := by
  constructor
  · intro h name hname text htext
    have hmem : text ∈ cleanTexts read raw := mem_cleanTexts_iff.2 ⟨name, hname, htext⟩
    have hne := List.ne_nil_of_mem hmem
    exact (fixList_arr_eq_some_iff hne nodup_cleanTexts).1 (h _ (if_neg hne)) text hmem
  · intro h value hvalue
    obtain ⟨rfl, hne⟩ := fixList_eq_some hvalue
    refine (fixList_arr_eq_some_iff hne nodup_cleanTexts).2 fun text htext => ?_
    obtain ⟨name, hname, hread⟩ := mem_cleanTexts_iff.1 htext
    exact h name hname text hread

theorem fixAssignees_eq (rules : TextRules) (known : Dict String String) (value : Json) :
    fixAssignees rules known value = fixList (resolveName rules known) value := by
  unfold fixAssignees
  dsimp only
  rw [cleanUsernames_eq]
  rfl

/-- A label joins the others if it is not blank. -/
def joinLabel (cleaned : List String) (label : Json) : List String :=
  Once.addAll cleaned (readLabel label).toList

theorem fixLabels_eq (value : Json) : fixLabels value = fixList readLabel value := by
  have hfold : ∀ (labels : List Json) (cleaned : List String),
      labels.foldl joinLabel cleaned = Once.addAll cleaned (labels.filterMap readLabel) := by
    intro labels
    induction labels with
    | nil =>
        intro cleaned
        rfl
    | cons label labels ih =>
        intro cleaned
        rw [List.foldl_cons, ih, List.filterMap_cons, joinLabel]
        cases readLabel label <;> rfl
  have hstep : (fun cleaned label =>
      let name := String.ofList ((cleanText label).toList.take 30)
      if name = "" ∨ name ∈ cleaned then cleaned else cleaned ++ [name]) = joinLabel := by
    funext cleaned label
    dsimp only
    unfold joinLabel readLabel
    generalize String.ofList ((cleanText label).toList.take 30) = name
    by_cases hblank : name = ""
    · rw [if_pos (.inl hblank), if_pos hblank]
      rfl
    · rw [if_neg hblank]
      change _ = Once.add cleaned name
      unfold Once.add
      by_cases hmem : name ∈ cleaned
      · rw [if_pos (.inr hmem), if_pos hmem]
      · rw [if_neg (not_or.2 ⟨hblank, hmem⟩), if_neg hmem]
  unfold fixLabels fixList cleanTexts
  rw [← hfold, ← hstep]
  rfl

end Lists

section Values

/-- A strict ISO 8601 date or date-time. -/
def IsStrictDate (value : Json) : Prop :=
  ∃ text, value = .str text ∧ IsoDate.isStrict text.toList = true

/-- A list of usernames without repetitions, which the resolver gives if it has any. -/
def AcceptableAssignees (known : Dict String String) (value : Json) : Prop :=
  ∃ usernames : List String, value = .arr (usernames.map .str) ∧ usernames ≠ [] ∧
    usernames.Nodup ∧ (known ≠ [] → ∀ username ∈ usernames, username ∈ Dict.values known)

/-- A list of short labels without repetitions, none of them blank. -/
def AcceptableLabels (value : Json) : Prop :=
  ∃ labels : List String, value = .arr (labels.map .str) ∧ labels ≠ [] ∧ labels.Nodup ∧
    ∀ label ∈ labels, strip label ≠ "" ∧ label.length ≤ 30

/-- A value of the enumeration. -/
def IsOneOf (allowed : List String) (value : Json) : Prop := ∃ text ∈ allowed, value = .str text

/-- A value is fixed to a good one, which stays as it is, and a good value is left alone. -/
structure FixesWell (good : Json → Prop) (fix : Json → Option Json) (value : Json) : Prop where
  sound : ∀ fixed, fix value = some fixed → good fixed
  stable : ∀ fixed, fix value = some fixed → fix fixed = some fixed
  kept : good value → fix value = some value

variable {rules : TextRules} {known : Dict String String} {value : Json}

theorem fixEnum_of_mem {allowed : List String} {text : String} (htext : text ∈ allowed)
    (hlower : rules.lower text = text) (hstrip : strip text = text) :
    fixEnum rules allowed (.str text) = some (.str text) := by
  have hfixed : rules.lower (strip (Json.str text).toStr) = text := by
    rw [Json.toStr, hstrip, hlower]
  unfold fixEnum
  dsimp only
  rw [hfixed, if_pos htext]

theorem fixDate_eq_some_iff {fixed : Json} :
    fixDate rules value = some fixed ↔
      isIsoDate rules (strip value.toStr) = true ∧ fixed = value := by
  unfold fixDate
  split
  next h => simp [h, eq_comm]
  next h => simp [h]

/-- A strict date begins with an ISO date, and no white space stands before it. -/
theorem isIsoDate_of_isStrict (hdecimal : ∀ c : Char, c.isDigit = true → rules.isDecimal c = true)
    {text : String} (h : IsoDate.isStrict text.toList = true) :
    isIsoDate rules (strip text) = true := by
  obtain ⟨y₁, y₂, y₃, y₄, m₁, m₂, d₁, d₂, rest, htext, hdigits⟩ := IsoDate.exists_of_isStrict h
  have hspace : ∀ d : Char, d.isDigit = true → isWhiteSpace d = false := by
    intro d hd
    have hbounds : 48 ≤ d.toNat ∧ d.toNat ≤ 57 := by
      simpa [Char.isDigit, UInt32.le_iff_toNat_le] using hd
    exact isWhiteSpace_of_graphic (by omega) (by omega)
  obtain ⟨rest', hrest⟩ := @Trim.exists_trim_append _ isWhiteSpace
    [y₁, y₂, y₃, y₄, '-', m₁, m₂, '-', d₁, d₂] rest (List.cons_ne_nil _ _)
    (hspace y₁ (hdigits y₁ (by simp))) (hspace d₂ (hdigits d₂ (by simp)))
  unfold isIsoDate
  rw [toList_strip, htext, hrest]
  have hall := fun d hd => hdecimal d (hdigits d hd)
  simp only [List.mem_cons, List.not_mem_nil, or_false, forall_eq_or_imp, forall_eq] at hall
  simp [hall]

/-- An enumeration in lower case is fixed well. -/
theorem fixesWell_enum {allowed : List String}
    (hallowed : ∀ text ∈ allowed, rules.lower text = text ∧ strip text = text) (value : Json) :
    FixesWell (IsOneOf allowed) (fixEnum rules allowed) value where
  sound fixed h := fixEnum_eq_some h
  stable fixed h := by
    obtain ⟨text, htext, rfl⟩ := fixEnum_eq_some h
    exact fixEnum_of_mem htext (hallowed text htext).1 (hallowed text htext).2
  kept := by
    rintro ⟨text, htext, rfl⟩
    exact fixEnum_of_mem htext (hallowed text htext).1 (hallowed text htext).2

theorem fixesWell_date_iff
    (hdecimal : ∀ c : Char, c.isDigit = true → rules.isDecimal c = true) :
    FixesWell IsStrictDate (fixDate rules) value ↔
      (isIsoDate rules (strip value.toStr) = true → IsStrictDate value) := by
  constructor
  · intro h hbegins
    exact h.sound value (fixDate_eq_some_iff.2 ⟨hbegins, rfl⟩)
  · intro h
    refine ⟨fun fixed hfixed => ?_, fun fixed hfixed => ?_, ?_⟩
    · obtain ⟨hbegins, rfl⟩ := fixDate_eq_some_iff.1 hfixed
      exact h hbegins
    · obtain ⟨hbegins, rfl⟩ := fixDate_eq_some_iff.1 hfixed
      exact fixDate_eq_some_iff.2 ⟨hbegins, rfl⟩
    · rintro ⟨text, rfl, htext⟩
      exact fixDate_eq_some_iff.2 ⟨isIsoDate_of_isStrict hdecimal htext, rfl⟩

/-- Lists are fixed well where what is read of the value is read as itself, and so are the texts
of a good list. -/
theorem fixesWell_list_iff {read : Json → Option String} {good : Json → Prop}
    (hfixed : ∀ fixed, fixList read value = some fixed → good fixed)
    (hgood : good value → ∃ texts : List String, value = .arr (texts.map .str) ∧ texts ≠ [] ∧
      texts.Nodup) :
    FixesWell good (fixList read) value ↔
      (∀ name ∈ namesOf value, ∀ text, read name = some text → read (.str text) = some text) ∧
        (good value → ∀ text, .str text ∈ namesOf value → read (.str text) = some text) := by
  have hkept : (good value → fixList read value = some value) ↔
      (good value → ∀ text, .str text ∈ namesOf value → read (.str text) = some text) := by
    refine forall_congr' fun h => ?_
    obtain ⟨texts, rfl, hne, hnodup⟩ := hgood h
    rw [fixList_arr_eq_some_iff hne hnodup, namesOf]
    refine forall_congr' fun text => ?_
    rw [List.mem_map_of_injective fun _ _ => Json.str.inj]
  constructor
  · intro h
    exact ⟨fixList_stable_iff.1 h.stable, hkept.1 h.kept⟩
  · rintro ⟨hstable, hread⟩
    exact ⟨hfixed, fixList_stable_iff.2 hstable, hkept.2 hread⟩

end Values

section Labels

variable {label : Json} {text : String}

/-- A short label is read as itself where no white space stands around it. -/
theorem readLabel_str_iff (hne : text ≠ "") (hlength : text.length ≤ 30) :
    readLabel (.str text) = some text ↔ strip text = text := by
  have hcut : String.ofList ((cleanText (.str text)).toList.take 30) = strip text := by
    rw [cleanText_str, List.take_of_length_le, String.ofList_toList]
    rw [String.length_toList]
    exact (length_strip_le text).trans hlength
  unfold readLabel
  rw [hcut]
  constructor
  · intro h
    split at h
    · cases h
    · exact Option.some.inj h
  · intro h
    rw [h, if_neg hne]

/-- What is read as a label, begins with a character that is not white space. -/
theorem readLabel_eq_some (h : readLabel label = some text) :
    text.toList = (cleanText label).toList.take 30 ∧ text ≠ "" ∧
      ∀ hne : text.toList ≠ [], isWhiteSpace (text.toList.head hne) = false := by
  unfold readLabel at h
  split at h
  · cases h
  next hblank =>
    obtain rfl := Option.some.inj h
    refine ⟨String.toList_ofList, hblank, ?_⟩
    rw [String.toList_ofList]
    refine Trim.trim_take_head ?_
    rw [cleanText, ← toList_strip, strip_strip]

/-- What is read as a label, is an acceptable one. -/
theorem acceptable_of_readLabel (h : readLabel label = some text) :
    strip text ≠ "" ∧ text.length ≤ 30 := by
  obtain ⟨htext, hne, hhead⟩ := readLabel_eq_some h
  refine ⟨strip_ne_empty_iff.2 ?_, ?_⟩
  · have hlist : text.toList ≠ [] := fun hnil => hne (String.toList_eq_nil_iff.1 hnil)
    exact ⟨_, List.head_mem hlist, hhead hlist⟩
  · rw [← String.length_toList, htext]
    exact List.length_take_le 30 _

/-- Reading a label twice is reading it once where it is not cut behind white space. -/
theorem readLabel_stable_iff :
    (∀ text, readLabel label = some text → readLabel (.str text) = some text) ↔
      ∀ c, ((cleanText label).toList.take 30).getLast? = some c → isWhiteSpace c = false := by
  have hread : ∀ text, readLabel label = some text →
      (readLabel (.str text) = some text ↔
        ∀ c, ((cleanText label).toList.take 30).getLast? = some c → isWhiteSpace c = false) := by
    intro text h
    obtain ⟨htext, hne, hhead⟩ := readLabel_eq_some h
    rw [readLabel_str_iff hne (acceptable_of_readLabel h).2, ← String.toList_inj, toList_strip,
      Trim.trim_eq_self_iff, and_iff_right hhead, ← htext]
    constructor
    · intro hlast c hc
      have hlist : text.toList ≠ [] := by
        rintro hnil
        rw [hnil] at hc
        cases hc
      rw [List.getLast?_eq_some_getLast hlist] at hc
      exact Option.some.inj hc ▸ hlast hlist
    · intro hlast hlist
      exact hlast _ (List.getLast?_eq_some_getLast hlist)
  cases hlabel : readLabel label with
  | some text =>
      rw [← hread text hlabel]
      constructor
      · intro h
        exact h text rfl
      · rintro h _ ⟨⟩
        exact h
  | none =>
      refine iff_of_true (fun text h => by cases h) fun c hc => ?_
      unfold readLabel at hlabel
      split at hlabel
      next hblank =>
        rw [← String.toList_eq_nil_iff, String.toList_ofList] at hblank
        rw [hblank] at hc
        cases hc
      next => cases hlabel

/-- Labels are fixed well where none is cut behind white space, and acceptable ones have no white
space around them. -/
theorem fixesWell_labels_iff {value : Json} :
    FixesWell AcceptableLabels fixLabels value ↔
      (∀ label ∈ namesOf value, ∀ c, ((cleanText label).toList.take 30).getLast? = some c →
        isWhiteSpace c = false) ∧
      (AcceptableLabels value → ∀ text, .str text ∈ namesOf value → strip text = text) := by
  rw [funext fixLabels_eq, fixesWell_list_iff]
  · refine and_congr (forall₂_congr fun label _ => readLabel_stable_iff) ?_
    refine forall_congr' fun hgood => forall₂_congr fun text htext => ?_
    obtain ⟨labels, rfl, -, -, hlabels⟩ := hgood
    obtain ⟨text', htext', heq⟩ := List.mem_map.1 htext
    cases heq
    obtain ⟨hblank, hlength⟩ := hlabels text htext'
    refine readLabel_str_iff (fun hempty => hblank ?_) hlength
    rw [hempty]
    rfl
  · intro fixed hfixed
    obtain ⟨rfl, hne⟩ := fixList_eq_some hfixed
    refine ⟨_, rfl, hne, nodup_cleanTexts, fun text htext => ?_⟩
    obtain ⟨label, -, hread⟩ := mem_cleanTexts_iff.1 htext
    exact acceptable_of_readLabel hread
  · rintro ⟨labels, rfl, hne, hnodup, -⟩
    exact ⟨labels, rfl, hne, hnodup⟩

/-- Assignees are fixed well where usernames that are resolved, and acceptable ones, are resolved
to themselves. -/
theorem fixesWell_assignees_iff {rules : TextRules} {known : Dict String String} {value : Json} :
    FixesWell (AcceptableAssignees known) (fixAssignees rules known) value ↔
      (∀ name ∈ namesOf value, ∀ username, resolveName rules known name = some username →
        resolveName rules known (.str username) = some username) ∧
      (AcceptableAssignees known value → ∀ username, .str username ∈ namesOf value →
        resolveName rules known (.str username) = some username) := by
  rw [funext (fixAssignees_eq rules known), fixesWell_list_iff]
  · intro fixed hfixed
    obtain ⟨rfl, hne⟩ := fixList_eq_some hfixed
    refine ⟨_, rfl, hne, nodup_cleanTexts, fun hknown username husername => ?_⟩
    obtain ⟨name, -, hread⟩ := mem_cleanTexts_iff.1 husername
    exact (resolveName_eq_some hread).2.1 hknown
  · rintro ⟨usernames, rfl, hne, hnodup, -⟩
    exact ⟨usernames, rfl, hne, hnodup⟩

end Labels

section Payloads

/-- A field, what normalization does to its value, and which values the API accepts in it. -/
structure FieldRule where
  field : String
  fix : Json → Option Json
  good : Json → Prop

/-- The fields in the order in which they are normalized. -/
def fieldRules (rules : TextRules) (known : Dict String String) : List FieldRule :=
  [⟨"priority", fixEnum rules WORK_ITEM_PRIORITIES, IsOneOf WORK_ITEM_PRIORITIES⟩,
    ⟨"status", fixEnum rules WORK_ITEM_STATUSES, IsOneOf WORK_ITEM_STATUSES⟩,
    ⟨"startDate", fixDate rules, IsStrictDate⟩, ⟨"dueDate", fixDate rules, IsStrictDate⟩,
    ⟨"assigneeUsernames", fixAssignees rules known, AcceptableAssignees known⟩,
    ⟨"labelNames", fixLabels, AcceptableLabels⟩]

/-- Fix the values of the fields, in turn. -/
def fixAll (fixes : List FieldRule) (payload : Fields) : Fields :=
  fixes.foldl (fun payload rule => fixField rule.field rule.fix payload) payload

variable {fixes : List FieldRule} {payload : Fields}

theorem lookup_fixAll_of_notMem {key : String} (h : key ∉ fixes.map FieldRule.field) :
    (fixAll fixes payload).lookup key = payload.lookup key := by
  induction fixes generalizing payload with
  | nil => rfl
  | cons rule fixes ih =>
      rw [List.map_cons, List.mem_cons, not_or] at h
      exact (ih h.2).trans (lookup_fixField_of_ne h.1 rule.fix)

/-- Every field is fixed by itself. -/
theorem lookup_fixAll (hdistinct : (fixes.map FieldRule.field).Nodup) :
    ∀ rule ∈ fixes, (fixAll fixes payload).lookup rule.field =
      (payload.lookup rule.field).bind rule.fix := by
  induction fixes generalizing payload with
  | nil => exact List.forall_mem_nil _
  | cons first fixes ih =>
      obtain ⟨hfirst, hrest⟩ := List.nodup_cons.1 hdistinct
      refine List.forall_mem_cons.2 ⟨?_, fun rule hrule => ?_⟩
      · exact (lookup_fixAll_of_notMem hfirst).trans (lookup_fixField_self first.field first.fix)
      · have hne : rule.field ≠ first.field := by
          rintro heq
          exact hfirst (heq ▸ List.mem_map_of_mem hrule)
        refine (ih hrest rule hrule).trans ?_
        rw [lookup_fixField_of_ne hne]

theorem fixField_eq_self {field : String} {fix : Json → Option Json}
    (h : ∀ value, payload.lookup field = some value → fix value = some value) :
    fixField field fix payload = payload := by
  unfold fixField
  cases hvalue : payload.lookup field with
  | none => rfl
  | some value =>
      dsimp only
      rw [h value hvalue]
      exact Dict.insert_of_lookup hvalue

/-- A payload is left as it is where every value is. -/
theorem fixAll_eq_self_iff (hdistinct : (fixes.map FieldRule.field).Nodup) :
    fixAll fixes payload = payload ↔
      ∀ rule ∈ fixes, ∀ value, payload.lookup rule.field = some value →
        rule.fix value = some value := by
  constructor
  · intro h rule hrule value hvalue
    have hlookup := @lookup_fixAll fixes payload hdistinct rule hrule
    rw [h, hvalue] at hlookup
    exact hlookup.symm
  · intro h
    clear hdistinct
    induction fixes with
    | nil => rfl
    | cons rule fixes ih =>
        obtain ⟨hrule, hrest⟩ := List.forall_mem_cons.1 h
        change fixAll fixes (fixField rule.field rule.fix payload) = payload
        rw [fixField_eq_self hrule]
        exact ih hrest

/-- Good values, which stay as they are, come from fixing every value well. -/
theorem fixAll_good_iff (hdistinct : (fixes.map FieldRule.field).Nodup) :
    ((∀ rule ∈ fixes, ∀ value, (fixAll fixes payload).lookup rule.field = some value →
        rule.good value) ∧
      (∀ rule ∈ fixes, ∀ value, payload.lookup rule.field = some value → rule.good value →
        (fixAll fixes payload).lookup rule.field = some value) ∧
      fixAll fixes (fixAll fixes payload) = fixAll fixes payload) ↔
      ∀ rule ∈ fixes, ∀ value, payload.lookup rule.field = some value →
        FixesWell rule.good rule.fix value := by
  have hlookup : ∀ rule ∈ fixes, ∀ value, payload.lookup rule.field = some value →
      (fixAll fixes payload).lookup rule.field = rule.fix value := by
    intro rule hrule value hvalue
    rw [lookup_fixAll hdistinct rule hrule, hvalue, Option.bind_some]
  have hfixed : ∀ rule ∈ fixes, ∀ fixed, (fixAll fixes payload).lookup rule.field = some fixed →
      ∃ value, payload.lookup rule.field = some value ∧ rule.fix value = some fixed := by
    intro rule hrule fixed h
    rw [lookup_fixAll hdistinct rule hrule] at h
    exact Option.bind_eq_some_iff.1 h
  rw [fixAll_eq_self_iff hdistinct]
  constructor
  · rintro ⟨hgood, hkept, hstable⟩ rule hrule value hvalue
    have hrule' := hlookup rule hrule value hvalue
    refine ⟨fun fixed h => hgood rule hrule fixed (hrule'.trans h),
      fun fixed h => hstable rule hrule fixed (hrule'.trans h), fun h => ?_⟩
    rw [← hrule', hkept rule hrule value hvalue h]
  · intro h
    refine ⟨fun rule hrule fixed hlook => ?_, fun rule hrule value hvalue hgood => ?_,
      fun rule hrule fixed hlook => ?_⟩
    · obtain ⟨value, hvalue, hfix⟩ := hfixed rule hrule fixed hlook
      exact (h rule hrule value hvalue).sound fixed hfix
    · rw [hlookup rule hrule value hvalue]
      exact (h rule hrule value hvalue).kept hgood
    · obtain ⟨value, hvalue, hfix⟩ := hfixed rule hrule fixed hlook
      exact (h rule hrule value hvalue).stable fixed hfix

theorem normalizeNodePayload_eq (rules : TextRules) (known : Dict String String)
    (payload : Fields) :
    normalizeNodePayload rules known payload = fixAll (fieldRules rules known) payload := by
  simp only [fixAll, fieldRules, List.foldl_cons, List.foldl_nil, normalizeNodePayload]

end Payloads

/-- A normalized payload has acceptable values, keeps the ones that were so and what is in other
fields, and is normalized to itself. -/
structure Normalizes (rules : TextRules) (known : Dict String String) (payload : Fields) :
    Prop where
  acceptable : ∀ rule ∈ fieldRules rules known, ∀ value,
    (normalizeNodePayload rules known payload).lookup rule.field = some value → rule.good value
  kept : ∀ rule ∈ fieldRules rules known, ∀ value, payload.lookup rule.field = some value →
    rule.good value → (normalizeNodePayload rules known payload).lookup rule.field = some value
  stable : normalizeNodePayload rules known (normalizeNodePayload rules known payload) =
    normalizeNodePayload rules known payload
  untouched : ∀ key ∉ (fieldRules rules known).map FieldRule.field,
    (normalizeNodePayload rules known payload).lookup key = payload.lookup key

/-- What begins with a date is a strict one, usernames are resolved to themselves, and labels are
not cut behind white space; acceptable lists have no white space around their entries. -/
structure WellGiven (rules : TextRules) (known : Dict String String) (payload : Fields) : Prop where
  dates : ∀ field ∈ ["startDate", "dueDate"], ∀ value, payload.lookup field = some value →
    isIsoDate rules (strip value.toStr) = true → IsStrictDate value
  resolved : ∀ value, payload.lookup "assigneeUsernames" = some value →
    ∀ name ∈ namesOf value, ∀ username, resolveName rules known name = some username →
      resolveName rules known (.str username) = some username
  assignees : ∀ value, payload.lookup "assigneeUsernames" = some value →
    AcceptableAssignees known value → ∀ username, .str username ∈ namesOf value →
      resolveName rules known (.str username) = some username
  cut : ∀ value, payload.lookup "labelNames" = some value → ∀ label ∈ namesOf value,
    ∀ c, ((cleanText label).toList.take 30).getLast? = some c → isWhiteSpace c = false
  labels : ∀ value, payload.lookup "labelNames" = some value → AcceptableLabels value →
    ∀ label, .str label ∈ namesOf value → strip label = label

/-- Normalized payloads are acceptable and stable exactly for payloads that are given well. The
text functions leave the enumerations as they are and know the digits. -/
theorem normalized_acceptable_iff (rules : TextRules) (known : Dict String String)
    (payload : Fields)
    (hlower : ∀ text ∈ WORK_ITEM_PRIORITIES ++ WORK_ITEM_STATUSES, rules.lower text = text)
    (hdecimal : ∀ c : Char, c.isDigit = true → rules.isDecimal c = true) :
    Normalizes rules known payload ↔ WellGiven rules known payload := by
  have hdistinct : ((fieldRules rules known).map FieldRule.field).Nodup := by
    change ["priority", "status", "startDate", "dueDate", "assigneeUsernames", "labelNames"].Nodup
    decide
  have hstrip : ∀ text ∈ WORK_ITEM_PRIORITIES ++ WORK_ITEM_STATUSES, strip text = text := by
    decide
  have hpriority := @fixesWell_enum rules WORK_ITEM_PRIORITIES fun text htext =>
    ⟨hlower text (List.mem_append_left _ htext), hstrip text (List.mem_append_left _ htext)⟩
  have hstatus := @fixesWell_enum rules WORK_ITEM_STATUSES fun text htext =>
    ⟨hlower text (List.mem_append_right _ htext), hstrip text (List.mem_append_right _ htext)⟩
  have hrules := @fixAll_good_iff (fieldRules rules known) payload hdistinct
  constructor
  · intro h
    obtain ⟨hacceptable, hkept, hstable, -⟩ := h
    rw [normalizeNodePayload_eq, normalizeNodePayload_eq] at hstable
    simp only [normalizeNodePayload_eq] at hacceptable hkept
    have hwell := hrules.1 ⟨hacceptable, hkept, hstable⟩
    simp only [fieldRules, List.forall_mem_cons] at hwell
    obtain ⟨-, -, hstart, hdue, hassignees, hlabels, -⟩ := hwell
    have hdates : ∀ value, (payload.lookup "startDate" = some value ∨
        payload.lookup "dueDate" = some value) →
          (isIsoDate rules (strip value.toStr) = true → IsStrictDate value) := by
      rintro value (hvalue | hvalue)
      · exact (fixesWell_date_iff hdecimal).1 (hstart value hvalue)
      · exact (fixesWell_date_iff hdecimal).1 (hdue value hvalue)
    have hassignees' := fun value hvalue => fixesWell_assignees_iff.1 (hassignees value hvalue)
    have hlabels' := fun value hvalue => fixesWell_labels_iff.1 (hlabels value hvalue)
    exact {
      dates := List.forall_mem_cons.2 ⟨fun value hvalue => hdates value (.inl hvalue),
        List.forall_mem_singleton.2 fun value hvalue => hdates value (.inr hvalue)⟩
      resolved := fun value hvalue => (hassignees' value hvalue).1
      assignees := fun value hvalue => (hassignees' value hvalue).2
      cut := fun value hvalue => (hlabels' value hvalue).1
      labels := fun value hvalue => (hlabels' value hvalue).2 }
  · intro h
    obtain ⟨hacceptable, hkept, hstable⟩ := hrules.2 <| by
      simp only [fieldRules, List.forall_mem_cons]
      refine ⟨fun value _ => hpriority value, fun value _ => hstatus value, fun value hvalue => ?_,
        fun value hvalue => ?_, fun value hvalue => ?_, fun value hvalue => ?_,
        List.forall_mem_nil _⟩
      · exact (fixesWell_date_iff hdecimal).2 (h.dates "startDate" (by simp) value hvalue)
      · exact (fixesWell_date_iff hdecimal).2 (h.dates "dueDate" (by simp) value hvalue)
      · exact fixesWell_assignees_iff.2 ⟨h.resolved value hvalue, h.assignees value hvalue⟩
      · exact fixesWell_labels_iff.2 ⟨h.cut value hvalue, h.labels value hvalue⟩
    rw [← normalizeNodePayload_eq] at hacceptable hkept hstable
    rw [← normalizeNodePayload_eq] at hstable
    refine ⟨hacceptable, hkept, hstable, fun key hkey => ?_⟩
    rw [normalizeNodePayload_eq]
    exact lookup_fixAll_of_notMem hkey

/-- A payload with an unknown priority, a date in words, an unknown member and repeated
entries. -/
def givenPayload : Fields :=
  [("title", .str "Log in"), ("priority", .str "soon"), ("status", .str "todo"),
    ("startDate", .str "next week"), ("dueDate", .str "2026-06-30"),
    ("assigneeUsernames", .arr [.str "bob", .str "ghost", .str "bob"]),
    ("labelNames", .arr [.str "ui", .str "", .str "ui"])]

/-- What is not acceptable is dropped, the rest stays. -/
theorem normalized_acceptable_iff_sample :
    Normalizes plainRules [("bob", "bob")] givenPayload ∧
      normalizeNodePayload plainRules [("bob", "bob")] givenPayload =
        [("title", .str "Log in"), ("status", .str "todo"), ("dueDate", .str "2026-06-30"),
          ("assigneeUsernames", .arr [.str "bob"]), ("labelNames", .arr [.str "ui"])] := by
  have hbob : resolveName plainRules [("bob", "bob")] (.str "bob") = some "bob" := by decide
  have hghost : resolveName plainRules [("bob", "bob")] (.str "ghost") = none := by decide
  have hnames : ∀ value, givenPayload.lookup "assigneeUsernames" = some value →
      ∀ name ∈ namesOf value, name = .str "bob" ∨ name = .str "ghost" := by
    rintro value hvalue name hname
    obtain rfl : .arr _ = value := Option.some.inj hvalue
    simp [namesOf] at hname
    tauto
  have hlabels : ∀ value, givenPayload.lookup "labelNames" = some value →
      ∀ label ∈ namesOf value, label = .str "ui" ∨ label = .str "" := by
    rintro value hvalue label hlabel
    obtain rfl : .arr _ = value := Option.some.inj hvalue
    simp [namesOf] at hlabel
    tauto
  refine ⟨(normalized_acceptable_iff plainRules _ _ (by decide) fun _ h => h).2 ?_, by rfl⟩
  constructor
  · intro field hfield value hvalue
    rcases List.mem_pair.1 hfield with rfl | rfl
    · obtain rfl : .str "next week" = value := Option.some.inj hvalue
      exact fun h => absurd h (by decide)
    · obtain rfl : .str "2026-06-30" = value := Option.some.inj hvalue
      exact fun _ => ⟨_, rfl, by decide⟩
  · rintro value hvalue name hname username husername
    rcases hnames value hvalue name hname with rfl | rfl
    · rwa [← Option.some.inj (hbob.symm.trans husername)]
    · cases hghost.symm.trans husername
  · -- the list has repetitions, so it is not acceptable
    rintro value hvalue ⟨usernames, hlist, -, hnodup, -⟩
    obtain rfl : .arr (["bob", "ghost", "bob"].map .str) = value := Option.some.inj hvalue
    have hinjective : Function.Injective Json.str := fun _ _ => Json.str.inj
    obtain rfl := hinjective.list_map (Json.arr.inj hlist)
    exact absurd hnodup (by decide)
  · rintro value hvalue label hlabel c hc
    rcases hlabels value hvalue label hlabel with rfl | rfl
    · obtain rfl : 'i' = c := Option.some.inj hc
      decide
    · cases hc
  · rintro value hvalue - label hlabel
    rcases hlabels value hvalue _ hlabel with h | h <;> obtain rfl := Json.str.inj h <;> decide
/-- A text that only begins with a date is sent as a date. -/
theorem date_with_rest_is_sent :
    ¬∀ (rules : TextRules) (known : Dict String String) (payload : Fields),
      (∀ text ∈ WORK_ITEM_PRIORITIES ++ WORK_ITEM_STATUSES, rules.lower text = text) →
      (∀ c : Char, c.isDigit = true → rules.isDecimal c = true) →
        Normalizes rules known payload := by
  intro h
  have hnormal := h plainRules [] [("dueDate", .str "2026-06-30 or later")] (by decide) fun _ h => h
  have hrule : (⟨"dueDate", fixDate plainRules, IsStrictDate⟩ : FieldRule) ∈
      fieldRules plainRules [] := by
    simp [fieldRules]
  have hsent : (normalizeNodePayload plainRules [] [("dueDate", .str "2026-06-30 or later")]).lookup
      "dueDate" = some (.str "2026-06-30 or later") := by rfl
  obtain ⟨text, htext, hstrict⟩ := hnormal.acceptable _ hrule _ hsent
  cases htext
  exact absurd hstrict (by decide)

end PrismAgent
