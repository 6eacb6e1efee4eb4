import PrismAgent.Capabilities.WorkitemPayloads
import PrismAgent.Sorting.Once
import PrismAgent.Text.Trim

/-!
# Cleaning names

`_clean_usernames` resolves the names of a list one by one and keeps each username once. A
resolver that maps its usernames to themselves leaves cleaned names as they are.
-/

namespace PrismAgent

/-- The text functions on ASCII, in a form that evaluates. -/
def plainRules : TextRules where
  lower text := String.ofList (text.toList.map Char.toLower)
  isDecimal := Char.isDigit

section Names

variable (rules : TextRules) (known : Dict String String)

/-- The values that are read as names: the entries of a list, or the one value. -/
def namesOf (raw : Json) : List Json :=
  match raw with
  | .arr names => names
  | value => [value]

/-- The username that one name stands for. -/
def resolveName (name : Json) : Option String :=
  if cleanText name = "" then none else resolveUsername rules known (cleanText name)

/-- Every username that the resolver gives is resolved to itself. -/
def FixesUsernames : Prop :=
  ∀ username ∈ Dict.values known, username ≠ "" →
    resolveName rules known (.str username) = some username

/-- The username of a name joins the list, if there is one. -/
def joinResolved (cleaned : List String) (name : Json) : List String :=
  Once.addAll cleaned (resolveName rules known name).toList

/-- The usernames of a list of names are resolved one by one, and each is kept once. -/
theorem cleanUsernames_eq (raw : Json) :
    cleanUsernames rules known raw =
      Once.addAll [] ((namesOf raw).filterMap (resolveName rules known)) := by
  have hfold : ∀ (names : List Json) (cleaned : List String),
      names.foldl (joinResolved rules known) cleaned =
        Once.addAll cleaned (names.filterMap (resolveName rules known)) := by
    intro names
    induction names with
    | nil =>
        intro cleaned
        rfl
    | cons name names ih =>
        intro cleaned
        rw [List.foldl_cons, ih, List.filterMap_cons, joinResolved]
        cases resolveName rules known name <;> rfl
  unfold cleanUsernames
  rw [← hfold]
  refine congrArg (fun step => List.foldl step [] (namesOf raw))
    (funext fun cleaned => funext fun name => ?_)
  unfold joinResolved resolveName
  by_cases hblank : cleanText name = ""
  · rw [if_pos hblank, if_pos hblank]
    rfl
  · rw [if_neg hblank, if_neg hblank]
    cases resolveUsername rules known (cleanText name) <;> rfl

end Names

section Cleaned

variable {rules : TextRules} {known : Dict String String} {raw : Json} {username : String}

theorem nodup_cleanUsernames : (cleanUsernames rules known raw).Nodup := by
  rw [cleanUsernames_eq]
  exact Once.nodup_addAll List.nodup_nil

theorem mem_cleanUsernames_iff :
    username ∈ cleanUsernames rules known raw ↔
      ∃ name ∈ namesOf raw, resolveName rules known name = some username := by
  rw [cleanUsernames_eq, Once.mem_addAll, List.mem_filterMap]
  simp

theorem toList_strip (s : String) : (strip s).toList = Trim.trim isWhiteSpace s.toList := by
  rw [strip, String.toList_ofList]
  rfl

/-- Stripping twice is stripping once. -/
theorem strip_strip (s : String) : strip (strip s) = strip s := by
  rw [← String.toList_inj, toList_strip, toList_strip, Trim.trim_trim]

/-- A resolved name is a value of the resolver, or a text without white space around it. -/
theorem resolveName_eq_some {name : Json} (h : resolveName rules known name = some username) :
    username ≠ "" ∧ (known ≠ [] → username ∈ Dict.values known) ∧
      (known = [] → username = cleanText name) := by
  unfold resolveName at h
  split at h
  · cases h
  next hblank =>
    unfold resolveUsername at h
    split at h
    next hnil =>
      cases h
      exact ⟨hblank, fun hne => absurd hnil hne, fun _ => rfl⟩
    next hne =>
      obtain ⟨hlookup, hname⟩ := Option.filter_eq_some_iff.1 h
      refine ⟨by simpa using hname, fun _ => ?_, fun hnil => absurd hnil hne⟩
      obtain ⟨before, after, hsplit, -⟩ := List.lookup_eq_some_iff.1 hlookup
      rw [Dict.values, hsplit, List.map_append, List.map_cons]
      exact List.mem_append_right _ List.mem_cons_self

theorem cleanText_str (s : String) : cleanText (.str s) = strip s := by
  unfold cleanText
  by_cases hs : s = ""
  · subst hs
    rfl
  · rw [if_pos (by simp [Json.truthy, hs])]
    rfl

/-- Under such a resolver a resolved name is resolved to itself. -/
theorem FixesUsernames.resolveName_resolved (h : FixesUsernames rules known) {name : Json}
    (hname : resolveName rules known name = some username) :
    resolveName rules known (.str username) = some username := by
  obtain ⟨hne, hvalue, htext⟩ := resolveName_eq_some hname
  by_cases hknown : known = []
  · have hstripped : cleanText (.str username) = username := by
      rw [cleanText_str, htext hknown, cleanText, strip_strip]
    rw [resolveName, hstripped, if_neg hne, resolveUsername, if_pos hknown]
  · exact h username (hvalue hknown) hne

/-- A list of usernames that are resolved to themselves is clean. -/
theorem cleanUsernames_of_fixed {usernames : List String} (hnodup : usernames.Nodup)
    (h : ∀ username ∈ usernames, resolveName rules known (.str username) = some username) :
    cleanUsernames rules known (.arr (usernames.map .str)) = usernames := by
  have hresolved : (usernames.map Json.str).filterMap (resolveName rules known) = usernames := by
    clear hnodup
    induction usernames with
    | nil => rfl
    | cons username usernames ih =>
        obtain ⟨husername, hrest⟩ := List.forall_mem_cons.1 h
        rw [List.map_cons, List.filterMap_cons_some husername, ih hrest]
  rw [cleanUsernames_eq, namesOf, hresolved]
  exact Once.addAll_of_nodup hnodup

end Cleaned

end PrismAgent
