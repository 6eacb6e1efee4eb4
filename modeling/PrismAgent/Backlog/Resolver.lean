import PrismAgent.Backlog.RollUp
import PrismAgent.Backlog.TreeCreation
import PrismAgent.Backlog.Whitelist

/-!
# Resolving people

One map resolves usernames, full names and user ids; of several members with one name the first
listed counts. So a username stands for its member unless somebody else bears it as a name and
is listed earlier. Where every username stands for its member, cleaning names twice is cleaning
them once, and what is sent of a rolled up tree are people who were named.
-/

namespace PrismAgent

open CreateWorkItemTreeTool Effect
open UpdateWorkItemsBulkTool (contextItems)
open Forest (Path nodeAt preorder)

section Members

/-- The members that the context lists, in the order in which they are read. -/
def listedMembers (context : AgentContext) : List Fields :=
  (MEMBER_ENTITY_KEYS.flatMap (contextItems context.entities)).filterMap Json.asObj?

def usernameOf (member : Fields) : String := strip (textField member "username" "")

/-- The member is known by the name, in lower case, as username, full name or user id. -/
def Bears (rules : TextRules) (member : Fields) (name : String) : Prop :=
  usernameOf member ≠ "" ∧ ∃ key ∈ ["username", "fullName", "userId"],
    strip (textField member key "") ≠ "" ∧ rules.lower (strip (textField member key "")) = name

/-- Whoever bears the username of another member is listed after that member. -/
def UsernamesFirst (rules : TextRules) (context : AgentContext) : Prop :=
  ∀ before other after, listedMembers context = before ++ other :: after →
    ∀ username, IsMember context username → username ≠ "" →
      Bears rules other (rules.lower username) → usernameOf other ≠ username →
        ∃ member ∈ before, usernameOf member = username

variable {rules : TextRules} {context : AgentContext} {member : Fields} {name username : String}

theorem isMember_iff : IsMember context username ↔
    ∃ member ∈ listedMembers context, usernameOf member = username := by
  unfold IsMember listedMembers
  constructor
  · rintro ⟨key, hkey, members, hmembers, fields, hfields, husername⟩
    refine ⟨fields, List.mem_filterMap.2 ⟨.obj fields, List.mem_flatMap.2 ⟨key, hkey, ?_⟩, rfl⟩,
      husername⟩
    unfold contextItems
    rw [hmembers]
    exact hfields
  · rintro ⟨fields, hfields, husername⟩
    obtain ⟨node, hnode, hobj⟩ := List.mem_filterMap.1 hfields
    obtain ⟨key, hkey, hlisted⟩ := List.mem_flatMap.1 hnode
    cases node with
    | obj fields' =>
        cases hobj
        unfold contextItems at hlisted
        split at hlisted
        next members hmembers => exact ⟨key, hkey, members, hmembers, fields, hlisted, husername⟩
        next => cases hlisted
    | _ => cases hobj

/-- All names of a member stand for the username. -/
theorem mem_memberNames_iff :
    (name, username) ∈ memberNames rules (.obj member) ↔
      usernameOf member = username ∧ Bears rules member name := by
  unfold memberNames Bears usernameOf
  dsimp only
  by_cases hblank : strip (textField member "username" "") = ""
  · simp [hblank]
  · rw [if_neg hblank, List.mem_map]
    constructor
    · rintro ⟨text, htext, hentry⟩
      cases hentry
      refine ⟨rfl, hblank, ?_⟩
      rcases List.mem_cons.1 htext with rfl | htext
      · exact ⟨"username", by simp, hblank, rfl⟩
      · obtain ⟨hmem, hne⟩ := List.mem_filter.1 htext
        have htextNe : text ≠ "" := by simpa using hne
        simp only [List.mem_cons, List.not_mem_nil, or_false] at hmem
        rcases hmem with rfl | rfl
        · exact ⟨"fullName", by simp, htextNe, rfl⟩
        · exact ⟨"userId", by simp, htextNe, rfl⟩
    · rintro ⟨rfl, -, key, hkey, hne, rfl⟩
      refine ⟨_, ?_, rfl⟩
      simp only [List.mem_cons, List.not_mem_nil, or_false] at hkey
      rcases hkey with rfl | rfl | rfl
      · exact List.mem_cons_self
      · exact List.mem_cons_of_mem _ (List.mem_filter.2 ⟨by simp, by simpa using hne⟩)
      · exact List.mem_cons_of_mem _ (List.mem_filter.2 ⟨by simp, by simpa using hne⟩)

theorem eq_of_lookup_memberNames
    (h : (memberNames rules (.obj member)).lookup name = some username) :
    usernameOf member = username ∧ Bears rules member name := by
  obtain ⟨before, after, hsplit, -⟩ := List.lookup_eq_some_iff.1 h
  refine mem_memberNames_iff.1 ?_
  rw [hsplit]
  exact List.mem_append_right before List.mem_cons_self

theorem lookup_memberNames_eq_none_iff :
    (memberNames rules (.obj member)).lookup name = none ↔ ¬Bears rules member name := by
  constructor
  · intro hnone hbears
    have hmem := mem_memberNames_iff.2 ⟨rfl, hbears⟩
    exact absurd rfl (bne_iff_ne.1 (List.lookup_eq_none_iff.1 hnone _ hmem))
  · intro hnot
    cases hlookup : (memberNames rules (.obj member)).lookup name with
    | none => rfl
    | some username => exact absurd (eq_of_lookup_memberNames hlookup).2 hnot

theorem allMemberNames_eq :
    allMemberNames rules context =
      (listedMembers context).flatMap fun member => memberNames rules (.obj member) := by
  have hobjects : ∀ members : List Json, members.flatMap (memberNames rules) =
      (members.filterMap Json.asObj?).flatMap fun member => memberNames rules (.obj member) := by
    intro members
    induction members with
    | nil => rfl
    | cons member members ih =>
        rw [List.flatMap_cons, ih]
        cases member <;> rfl
  unfold allMemberNames listedMembers
  rw [← hobjects]
  rfl

/-- A name stands for the first member who bears it. -/
theorem lookup_known_iff :
    (knownMemberUsernames rules context).lookup name = some username ↔
      ∃ before member after, listedMembers context = before ++ member :: after ∧
        (∀ other ∈ before, ¬Bears rules other name) ∧
          usernameOf member = username ∧ Bears rules member name := by
  rw [lookup_knownMemberUsernames, allMemberNames_eq, Dict.lookup_flatMap_eq_some_iff]
  simp only [lookup_memberNames_eq_none_iff]
  constructor
  · rintro ⟨before, member, after, hsplit, hbefore, hmember⟩
    exact ⟨before, member, after, hsplit, hbefore, eq_of_lookup_memberNames hmember⟩
  · rintro ⟨before, member, after, hsplit, hbefore, rfl, hbears⟩
    refine ⟨before, member, after, hsplit, hbefore, ?_⟩
    cases hlookup : (memberNames rules (.obj member)).lookup name with
    | none => exact absurd hbears (lookup_memberNames_eq_none_iff.1 hlookup)
    | some username => rw [(eq_of_lookup_memberNames hlookup).1]

/-- A name stands for nobody where no member bears it. -/
theorem lookup_known_eq_none_iff :
    (knownMemberUsernames rules context).lookup name = none ↔
      ∀ member ∈ listedMembers context, ¬Bears rules member name := by
  rw [lookup_knownMemberUsernames, allMemberNames_eq, List.lookup_eq_none_iff]
  constructor
  · intro h member hmember hbears
    have hentry : (name, usernameOf member) ∈
        (listedMembers context).flatMap fun member => memberNames rules (.obj member) :=
      List.mem_flatMap.2 ⟨member, hmember, mem_memberNames_iff.2 ⟨rfl, hbears⟩⟩
    exact absurd rfl (bne_iff_ne.1 (h _ hentry))
  · rintro h ⟨other, username⟩ hentry
    obtain ⟨member, hmember, hnames⟩ := List.mem_flatMap.1 hentry
    rw [bne_iff_ne]
    rintro rfl
    exact h member hmember (mem_memberNames_iff.1 hnames).2

theorem bears_username (h : usernameOf member ≠ "") :
    Bears rules member (rules.lower (usernameOf member)) :=
  ⟨h, "username", List.mem_cons_self, h, rfl⟩

/-- Every username stands for its member exactly if nobody else who bears it comes first. -/
theorem usernamesFirst_iff :
    UsernamesFirst rules context ↔ ∀ username, IsMember context username → username ≠ "" →
      (knownMemberUsernames rules context).lookup (rules.lower username) = some username := by
  constructor
  · intro h username hmember hne
    obtain ⟨listed, hlisted, husername⟩ := isMember_iff.1 hmember
    have hbears : Bears rules listed (rules.lower username) := by
      subst husername
      exact bears_username hne
    -- somebody bears the username: the first who does is the member
    cases hlookup : (knownMemberUsernames rules context).lookup (rules.lower username) with
    | none =>
        exact absurd hbears (lookup_known_eq_none_iff.1 hlookup listed hlisted)
    | some found =>
        obtain ⟨before, first, after, hsplit, hbefore, hfirst, hfirstBears⟩ :=
          lookup_known_iff.1 hlookup
        by_cases heq : usernameOf first = username
        · rw [← hfirst, heq]
        · obtain ⟨member, hmem, hmemUsername⟩ :=
            h before first after hsplit username hmember hne hfirstBears heq
          refine absurd ?_ (hbefore member hmem)
          rw [← hmemUsername]
          exact bears_username (by rwa [hmemUsername])
  · intro h before other after hsplit username hmember hne hbears hother
    obtain ⟨before', first, after', hsplit', hbefore', hfirst, -⟩ :=
      lookup_known_iff.1 (h username hmember hne)
    rcases List.append_eq_append_iff.1 (hsplit.symm.trans hsplit') with
      ⟨rest, hbefore, hrest⟩ | ⟨rest, hbefore, hrest⟩
    · cases rest with
      | nil =>
          cases hrest
          exact absurd hfirst hother
      | cons _ rest =>
          cases hrest
          rw [hbefore] at hbefore'
          exact absurd hbears (hbefore' other (List.mem_append_right _ List.mem_cons_self))
    · cases rest with
      | nil =>
          cases hrest
          exact absurd hfirst hother
      | cons _ rest =>
          cases hrest
          rw [hbefore]
          exact ⟨first, List.mem_append_right _ List.mem_cons_self, hfirst⟩

end Members

section Names

variable {rules : TextRules} {context : AgentContext} {username : String}

theorem mem_of_mem_foldl_setDefault {κ ν : Type} [DecidableEq κ] {entries d : Dict κ ν}
    {entry : κ × ν}
    (h : entry ∈ entries.foldl (fun d entry => Dict.setDefault d entry.1 entry.2) d) :
    entry ∈ d ∨ entry ∈ entries := by
  induction entries generalizing d with
  | nil => exact .inl h
  | cons first entries ih =>
      rw [List.foldl_cons] at h
      rcases ih h with hd | hrest
      · unfold Dict.setDefault at hd
        split at hd
        · exact .inl hd
        · rcases List.mem_append.1 hd with hd | hfirst
          · exact .inl hd
          · exact .inr (List.mem_cons.2 (.inl (List.mem_singleton.1 hfirst)))
      · exact .inr (List.mem_cons_of_mem _ hrest)

theorem isMember_of_mem_values
    (h : username ∈ Dict.values (knownMemberUsernames rules context)) :
    IsMember context username := by
  obtain ⟨⟨name, value⟩, hmem, rfl⟩ := List.mem_map.1 h
  rcases mem_of_mem_foldl_setDefault hmem with hnil | hnames
  · cases hnil
  · exact isMember_of_mem hnames

/-- Where every username stands for its member, the resolver maps its usernames to themselves. -/
theorem UsernamesFirst.fixesUsernames (h : UsernamesFirst rules context) :
    FixesUsernames rules (knownMemberUsernames rules context) := by
  intro username hvalue hne
  have hmember : IsMember context username := isMember_of_mem_values hvalue
  have hstripped : cleanText (.str username) = username := by
    obtain ⟨member, -, rfl⟩ := isMember_iff.1 hmember
    rw [cleanText_str]
    exact strip_strip _
  rw [resolveName, hstripped, if_neg hne, resolveUsername,
    if_neg (known_of_isMember hmember hne), usernamesFirst_iff.1 h username hmember hne]
  simp [hne]

/-- The name stands for the user: for a member who bears it or, where no member is listed, for
itself. -/
def StandsFor (rules : TextRules) (context : AgentContext) (name : Json) (username : String) :
    Prop :=
  cleanText name ≠ "" ∧
    ((∃ member ∈ listedMembers context, usernameOf member = username ∧
        Bears rules member (rules.lower (cleanText name))) ∨
      ((∀ member ∈ listedMembers context, usernameOf member = "") ∧ username = cleanText name))

/-- A name that stands for the user is among the assignees of the node. -/
def NamedAt (rules : TextRules) (context : AgentContext) (node : Json) (username : String) : Prop :=
  ∃ fields value, node = .obj fields ∧ ("assigneeUsernames", value) ∈ fields ∧
    ∃ name ∈ namesOf value, StandsFor rules context name username

theorem standsFor_of_resolveName {name : Json}
    (h : resolveName rules (knownMemberUsernames rules context) name = some username) :
    StandsFor rules context name username := by
  unfold resolveName at h
  split at h
  · cases h
  next hblank =>
    refine ⟨hblank, ?_⟩
    unfold resolveUsername at h
    split at h
    next hnil =>
      cases h
      refine .inr ⟨fun member hmember => ?_, rfl⟩
      by_contra hne
      exact known_of_isMember (isMember_iff.2 ⟨member, hmember, rfl⟩) hne hnil
    next =>
      obtain ⟨hlookup, -⟩ := Option.filter_eq_some_iff.1 h
      obtain ⟨before, member, after, hsplit, -, hmember, hbears⟩ := lookup_known_iff.1 hlookup
      refine .inl ⟨member, ?_, hmember, hbears⟩
      rw [hsplit]
      exact List.mem_append_right _ List.mem_cons_self

/-- Whoever is left when the names of a node are cleaned was named there. -/
theorem namedAt_of_mem_cleanUsernames {fields : Fields} {value : Json}
    (hvalue : ("assigneeUsernames", value) ∈ fields)
    (h : username ∈ cleanUsernames rules (knownMemberUsernames rules context) value) :
    NamedAt rules context (.obj fields) username := by
  obtain ⟨name, hname, hresolved⟩ := mem_cleanUsernames_iff.1 h
  exact ⟨fields, value, rfl, hvalue, name, hname, standsFor_of_resolveName hresolved⟩

theorem namedAt_of_mem_ownAssignees {node : Json}
    (h : username ∈ ownAssignees rules (knownMemberUsernames rules context) node) :
    NamedAt rules context node username := by
  unfold ownAssignees assigneesIn at h
  have hnull : username ∉ cleanUsernames rules (knownMemberUsernames rules context) .null := by
    intro hmem
    obtain ⟨name, hname, hresolved⟩ := mem_cleanUsernames_iff.1 hmem
    obtain rfl := List.mem_singleton.1 hname
    cases hresolved
  cases node with
  | obj fields =>
      dsimp only at h
      cases hlookup : fields.lookup "assigneeUsernames" with
      | none =>
          rw [hlookup] at h
          exact absurd h hnull
      | some value =>
          rw [hlookup] at h
          obtain ⟨before, after, hsplit, -⟩ := List.lookup_eq_some_iff.1 hlookup
          refine namedAt_of_mem_cleanUsernames ?_ h
          rw [hsplit]
          exact List.mem_append_right before List.mem_cons_self
  | _ => exact absurd h hnull

end Names

section Payloads

variable {rules : TextRules} {known : Dict String String} {context : AgentContext}
  {action : PlannedAction}

theorem lookup_nodeFields_assignees (fields : Fields) :
    (nodeFields rules known action fields).lookup "assigneeUsernames" =
      ((filterPayload fields WORK_ITEM_TREE_NODE_FIELDS).lookup "assigneeUsernames").bind
        (fixAssignees rules known) := by
  unfold nodeFields
  dsimp only
  rw [lookup_normalizeNodePayload_assignees, Dict.lookup_setDefault, Dict.lookup_insert_of_ne
    (by decide), List.lookup_cons]
  congr 1
  exact Option.or_none

/-- The assignees of a rolled up node are its own or those of the subtree. -/
theorem mem_of_rollupNode {fields fields' : Fields} {names : List String}
    (h : rollupNode rules known (.obj fields) = .ok (.obj fields', names)) {value : Json}
    (hvalue : ("assigneeUsernames", value) ∈ fields') :
    ("assigneeUsernames", value) ∈ fields ∨ value = .arr (names.map .str) := by
  rw [rollupNode_obj] at h
  cases hbelow : rollupFields rules known fields with
  | error exc =>
      rw [hbelow] at h
      cases h
  | ok below =>
      rw [hbelow] at h
      cases h
      have hfields : ("assigneeUsernames", value) ∈ below.1 →
          ("assigneeUsernames", value) ∈ fields := by
        intro hmem
        rw [rollupFields_eq] at hbelow
        cases hlookup : fields.lookup "children" with
        | none =>
            rw [hlookup] at hbelow
            cases hbelow
            exact hmem
        | some children =>
            rw [hlookup] at hbelow
            dsimp only at hbelow
            cases hlist : rollupList rules known children with
            | error exc =>
                rw [hlist] at hbelow
                cases hbelow
            | ok rolled =>
                rw [hlist] at hbelow
                cases hbelow
                rcases Dict.mem_of_mem_insert hmem with hchildren | hmem
                · have hkey : "assigneeUsernames" = "children" := congrArg Prod.fst hchildren
                  exact absurd hkey (by decide)
                · exact hmem
      unfold withAssignees at hvalue
      split at hvalue
      · exact .inl (hfields hvalue)
      · rcases Dict.mem_of_mem_insert hvalue with hmerged | hmem
        · cases hmerged
          exact .inr rfl
        · exact .inl (hfields hmem)

/-- What is sent as the assignees of a node are the cleaned names of one of its fields. -/
theorem cleaned_of_nodeFields {fields : Fields} {value : Json}
    (hvalue : (nodeFields rules known action fields).lookup "assigneeUsernames" = some value) :
    ∃ sent, ("assigneeUsernames", sent) ∈ fields ∧
      value = .arr ((cleanUsernames rules known sent).map .str) := by
  rw [lookup_nodeFields_assignees] at hvalue
  obtain ⟨sent, hsent, hfixed⟩ := Option.bind_eq_some_iff.1 hvalue
  refine ⟨sent, ?_, ?_⟩
  · obtain ⟨before, after, hsplit, -⟩ := List.lookup_eq_some_iff.1 hsent
    have hfiltered : ("assigneeUsernames", sent) ∈
        filterPayload fields WORK_ITEM_TREE_NODE_FIELDS := by
      rw [hsplit]
      exact List.mem_append_right before List.mem_cons_self
    exact (List.mem_filter.1 hfiltered).1
  · unfold fixAssignees at hfixed
    dsimp only at hfixed
    split at hfixed <;> cases hfixed
    rfl

theorem lookup_call_assignees {record : CreatedNode} {fields : Fields}
    (hfields : record.node = .obj fields) (projectId : String) (requester : Option String) :
    (record.call rules known action projectId requester).payload.lookup "assigneeUsernames" =
      (nodeFields rules known action fields).lookup "assigneeUsernames" := by
  unfold CreatedNode.call
  dsimp only
  rw [lookup_withRequester (by decide), payload_eq hfields, lookup_withParent_of_ne (by decide)]

/-- What is sent of a node are people who were named at it or below it. -/
theorem named_of_nodeFields (h : UsernamesFirst rules context) {items : List Json} {p : Path}
    {node : Json} {fields' : Fields} (hnode : nodeAt listedChildren items p = some node)
    (hrolls : BoundedRolls rules (knownMemberUsernames rules context) node (.obj fields'))
    {value : Json}
    (hvalue : (nodeFields rules (knownMemberUsernames rules context) action fields').lookup
      "assigneeUsernames" = some value) :
    ∃ usernames : List String, value = .arr (usernames.map .str) ∧ ∀ username ∈ usernames,
      ∃ q below, nodeAt listedChildren items (p ++ q) = some below ∧
        NamedAt rules context below username := by
  obtain ⟨sent, hmem, hcleaned⟩ := cleaned_of_nodeFields hvalue
  obtain ⟨fields, rfl⟩ : ∃ fields, node = .obj fields := by
    obtain ⟨fields, hfields, -⟩ := (hrolls.1 node (List.mem_singleton_self node)).1
    exact ⟨fields, hfields⟩
  refine ⟨_, hcleaned, fun username husername => ?_⟩
  rcases mem_of_rollupNode hrolls.spec.1 hmem with hown | rfl
  · refine ⟨[], .obj fields, ?_, namedAt_of_mem_cleanUsernames hown husername⟩
    rw [List.append_nil]
    exact hnode
  · rw [cleanUsernames_preorderUnion h.fixesUsernames] at husername
    obtain ⟨below, hbelow, hown⟩ := mem_preorderUnion.1 husername
    obtain ⟨q, hq⟩ := Forest.exists_nodeAt_append hnode hbelow
    exact ⟨q, below, hq, namedAt_of_mem_ownAssignees hown⟩

end Payloads

/-- The resolver of a context maps every username to its member, so that cleaning is done once,
and what is sent of the nodes of a tree are people who were named at the node or below it. -/
structure ResolvesToSelf (rules : TextRules) (context : AgentContext) : Prop where
  members : ∀ username, IsMember context username → username ≠ "" →
    ∀ name, rules.lower name = rules.lower username →
      (knownMemberUsernames rules context).lookup (rules.lower name) = some username
  idempotent : ∀ raw, cleanUsernames rules (knownMemberUsernames rules context)
      (.arr ((cleanUsernames rules (knownMemberUsernames rules context) raw).map .str)) =
    cleanUsernames rules (knownMemberUsernames rules context) raw
  named : ∀ (loads : String → Option Json) (configured : Bool) (resultId : String)
      (action : PlannedAction),
    (execute rules loads configured resultId action context).wp Creates
      (fun r log => ∃ result, r = .ok result ∧
        ((result.success = false ∧ log = []) ∨
          ∃ items records made, coerceWorkItemTreeItems loads action.input = some items ∧
            CreatesTree rules (knownMemberUsernames rules context) action configured
              (textField action.input "projectId" (context.projectId.getD ""))
              (requestedByUserId action.input context)
              (validUuidOrNone ((action.input.lookup "parentId").getD .null)) items result
              records made log ∧
            ∀ record ∈ records, ∀ value,
              (record.call rules (knownMemberUsernames rules context) action
                (textField action.input "projectId" (context.projectId.getD ""))
                (requestedByUserId action.input context)).payload.lookup "assigneeUsernames" =
                  some value →
                ∃ usernames : List String, value = .arr (usernames.map .str) ∧
                  ∀ username ∈ usernames, ∃ q below,
                    nodeAt listedChildren items (record.path ++ q) = some below ∧
                      NamedAt rules context below username)) []

/-- The resolver maps people to themselves exactly if nobody else is known under a member's
username before the member is. -/
theorem people_resolved_to_themselves_iff (rules : TextRules) (context : AgentContext) :
    ResolvesToSelf rules context ↔ UsernamesFirst rules context := by
  constructor
  · intro h
    exact usernamesFirst_iff.2 fun username hmember hne => h.members username hmember hne _ rfl
  · intro h
    refine ⟨fun username hmember hne name hname => ?_, fun raw => ?_,
      fun loads configured resultId action => ?_⟩
    · rw [hname]
      exact usernamesFirst_iff.1 h username hmember hne
    · refine cleanUsernames_of_fixed nodup_cleanUsernames fun username husername => ?_
      obtain ⟨name, -, hname⟩ := mem_cleanUsernames_iff.1 husername
      exact h.fixesUsernames.resolveName_resolved hname
    · refine Program.wp_mono (wp_execute_tree rules loads configured resultId action context) ?_
      rintro r log ⟨result, rfl, ⟨hrefused, hempty, -⟩ | ⟨items, rolled, records, made, hcoerced,
        hvalid, hrolls, hnodes, -, htree⟩⟩
      · exact ⟨result, rfl, .inl ⟨hrefused, hempty⟩⟩
      · refine ⟨result, rfl, .inr ⟨items, records, made, hcoerced, htree,
          fun record hrecord value hvalue => ?_⟩⟩
        obtain ⟨total, hwalk⟩ := walk_of_valid hvalid
        have hbounded := forall₂_boundedRolls le_rfl (shaped_of_walk hwalk) hrolls
        have hrel := Forest.rel_nodeAt (fun _ _ => boundedRolls_children) hbounded record.path
        obtain ⟨fields, fields', -, hfields', -⟩ := htree.nodes record hrecord
        rw [hnodes record hrecord, hfields'] at hrel
        cases hnode : nodeAt listedChildren items record.path with
        | none =>
            rw [hnode] at hrel
            cases hrel
        | some node =>
            rw [hnode] at hrel
            obtain ⟨hrolled⟩ := hrel
            rw [lookup_call_assignees hfields'] at hvalue
            exact named_of_nodeFields h hnode hrolled hvalue

/-- The context of a project with these members. -/
def teamContext (members : List Json) : AgentContext :=
  { workspaceId := "ws", projectId := some "project", workflowId := "workflow",
    sourceEvent := .wrap { kind := .domain, eventId := "e", eventType := "", workspaceId := "ws" },
    entities := [("project_members", .arr members)] }

/-- Two members, the first of whom has the second one's username as full name. -/
def namesakes : List Json :=
  [.obj [("username", .str "carol"), ("fullName", .str "Bob")], .obj [("username", .str "bob")]]

/-- The name of the second member stands for the first. -/
theorem bob_resolves_to_carol :
    ¬∀ (rules : TextRules) (context : AgentContext), ResolvesToSelf rules context := by
  intro h
  have hmember : IsMember (teamContext namesakes) "bob" :=
    ⟨"project_members", List.mem_cons_self, _, rfl, [("username", .str "bob")],
      List.mem_cons_of_mem _ List.mem_cons_self, by decide⟩
  have hbob := (h plainRules (teamContext namesakes)).members "bob" hmember (by decide) "bob" rfl
  exact absurd hbob (by decide)

end PrismAgent
