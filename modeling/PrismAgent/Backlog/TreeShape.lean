import PrismAgent.Capabilities.CreateTreeTool
import PrismAgent.Forest.Levels
import Mathlib.Data.List.Forall2

/-!
# Trees of work items

What passes the validation is a tree: its nodes are objects with lists of children, and their
addresses are short. Rolling up the assignees keeps the tree as it is.
-/

namespace PrismAgent

open CreateWorkItemTreeTool
open Forest (Path nodeAt)

section Shape

/-- The list under a node's children. -/
def listedChildren (node : Json) : List Json :=
  match node with
  | .obj fields =>
      match (fields.lookup "children").getD .null with
      | .arr nodes => nodes
      | _ => []
  | _ => []

/-- The node is an object whose children are a list or missing. -/
def IsTreeNode (node : Json) : Prop :=
  ∃ fields, node = .obj fields ∧
    ((fields.lookup "children").getD .null = .null ∨
      ∃ nodes, (fields.lookup "children").getD .null = .arr nodes)

/-- Nodes with at most so many levels. -/
def Shaped : ℕ → List Json → Prop
  | 0, nodes => nodes = []
  | levels + 1, nodes => ∀ node ∈ nodes, IsTreeNode node ∧ Shaped levels (listedChildren node)

theorem shaped_nil (levels : ℕ) : Shaped levels [] := by
  cases levels with
  | zero => rfl
  | succ levels => exact List.forall_mem_nil _

theorem exists_of_foldlM_ok {α β ε : Type} {f : β → α → Except ε β} {xs : List α} {b c : β}
    (h : xs.foldlM f b = .ok c) : ∀ x ∈ xs, ∃ b c, f b x = .ok c := by
  induction xs generalizing b with
  | nil => exact List.forall_mem_nil _
  | cons x xs ih =>
      rw [List.foldlM_cons] at h
      cases hfirst : f b x with
      | error e =>
          rw [hfirst] at h
          cases h
      | ok next =>
          rw [hfirst] at h
          exact List.forall_mem_cons.2 ⟨⟨b, next, hfirst⟩, ih h⟩

/-- A node that passes its check is an object whose children pass theirs. -/
theorem checkNode_eq_ok {walkBelow : List Json → ℕ → Except String ℕ} {count total : ℕ}
    {node : Json} (h : checkNode walkBelow count node = .ok total) :
    IsTreeNode node ∧
      (listedChildren node = [] ∨ ∃ count, walkBelow (listedChildren node) count = .ok total) := by
  unfold checkNode at h
  cases node with
  | obj fields =>
      dsimp only at h
      split at h
      · cases h
      split at h
      · cases h
      split at h
      next hchildren =>
        refine ⟨⟨fields, rfl, Or.inl hchildren⟩, Or.inl ?_⟩
        simp only [listedChildren, hchildren]
      next children hchildren =>
        refine ⟨⟨fields, rfl, Or.inr ⟨children, hchildren⟩⟩, ?_⟩
        simp only [listedChildren, hchildren]
        split at h
        next hempty => exact Or.inl (List.isEmpty_iff.1 hempty)
        · exact Or.inr ⟨_, h⟩
      · cases h
  | _ => cases h

/-- What passes the walk has the shape of a tree. -/
theorem shaped_of_walk {levels count total : ℕ} {nodes : List Json}
    (h : walk levels nodes count = .ok total) : Shaped levels nodes := by
  induction levels generalizing nodes count total with
  | zero => cases h
  | succ levels ih =>
      intro node hnode
      obtain ⟨before, after, hcheck⟩ := exists_of_foldlM_ok h node hnode
      obtain ⟨htree, hempty | ⟨_, hbelow⟩⟩ := checkNode_eq_ok hcheck
      · rw [hempty]
        exact ⟨htree, shaped_nil levels⟩
      · exact ⟨htree, ih hbelow⟩

theorem walk_of_valid {items : List Json} (h : validateWorkItemTree (some items) = none) :
    ∃ total, walk MAX_WORK_ITEM_TREE_DEPTH items 0 = .ok total := by
  cases items with
  | nil => cases h
  | cons node nodes =>
      cases hwalk : walk MAX_WORK_ITEM_TREE_DEPTH (node :: nodes) 0 with
      | error error =>
          unfold validateWorkItemTree at h
          dsimp only [Option.getD_some] at h
          rw [hwalk] at h
          cases h
      | ok total => exact ⟨total, rfl⟩

/-- The addresses of a tree are no longer than it is deep. -/
theorem Shaped.of_nodeAt {levels : ℕ} {nodes : List Json} (h : Shaped levels nodes) {p : Path}
    {node : Json} (hnode : nodeAt listedChildren nodes p = some node) :
    p.length ≤ levels ∧ IsTreeNode node := by
  induction p generalizing nodes levels with
  | nil => cases hnode
  | cons i p ih =>
      cases levels with
      | zero =>
          cases h
          cases p <;> cases hnode
      | succ levels =>
          cases p with
          | nil => exact ⟨by simp, (h node (List.mem_of_getElem? hnode)).1⟩
          | cons j p =>
              obtain ⟨parent, hparent, hbelow⟩ := Option.bind_eq_some_iff.1 hnode
              obtain ⟨hlength, htree⟩ := ih (h parent (List.mem_of_getElem? hparent)).2 hbelow
              exact ⟨Nat.succ_le_succ hlength, htree⟩

end Shape

section Rollup

variable {rules : TextRules} {known : Dict String String}

/-- The second node is the first with the assignees rolled up; only objects are. -/
def Rolls (rules : TextRules) (known : Dict String String) (node rolled : Json) : Prop :=
  if node.isObj then ∃ names, rollupNode rules known node = .ok (rolled, names)
  else rolled = node

theorem rolls_of_rollupNodes {nodes rolled : List Json} {names : List String}
    (h : rollupNodes rules known nodes = .ok (rolled, names)) :
    List.Forall₂ (Rolls rules known) nodes rolled := by
  induction nodes generalizing rolled names with
  | nil =>
      cases h
      exact List.Forall₂.nil
  | cons node nodes ih =>
      unfold rollupNodes at h
      have hfirst : ∃ first, (if node.isObj then rollupNode rules known node
          else .ok (node, [])) = .ok first := by
        cases hif : (if node.isObj then rollupNode rules known node else .ok (node, [])) with
        | error exc =>
            rw [hif] at h
            cases h
        | ok first => exact ⟨first, rfl⟩
      obtain ⟨first, hfirst⟩ := hfirst
      rw [hfirst] at h
      cases hrest : rollupNodes rules known nodes with
      | error exc =>
          rw [hrest] at h
          cases h
      | ok rest =>
          rw [hrest] at h
          cases h
          refine List.Forall₂.cons ?_ (ih hrest)
          unfold Rolls
          by_cases hobj : node.isObj = true
          · rw [if_pos hobj] at hfirst ⊢
            exact ⟨first.2, hfirst⟩
          · rw [if_neg hobj] at hfirst ⊢
            cases hfirst
            rfl

/-- Rolling up the fields changes the children only. -/
theorem rollupFields_eq (fields : Fields) :
    rollupFields rules known fields =
      match fields.lookup "children" with
      | none => .ok (fields, [])
      | some value => (rollupList rules known value).map fun below =>
          (Dict.insert fields "children" below.1, below.2) := by
  induction fields with
  | nil => rfl
  | cons entry fields ih =>
      obtain ⟨key, value⟩ := entry
      unfold rollupFields
      by_cases hkey : key = "children"
      · subst hkey
        rw [if_pos rfl, List.lookup_cons_self]
        dsimp only
        cases rollupList rules known value with
        | error exc => rfl
        | ok below => exact congrArg (fun fields => Except.ok (fields, below.2)) (if_pos rfl).symm
      · have hne : ("children" == key) = false := beq_eq_false_iff_ne.2 (Ne.symm hkey)
        rw [if_neg hkey, List.lookup_cons, hne, ih]
        cases fields.lookup "children" with
        | none => rfl
        | some value =>
            dsimp only
            cases rollupList rules known value with
            | error exc => rfl
            | ok below =>
                exact congrArg (fun fields => Except.ok (fields, below.2)) (if_neg hkey).symm

/-- What is rolled up has the node's own fields, except for its assignees and children. -/
theorem lookup_withAssignees {fields : Fields} {merged : List String} {key : String}
    (h : key ≠ "assigneeUsernames") :
    (withAssignees fields merged).lookup key = fields.lookup key := by
  unfold withAssignees
  split
  · rfl
  · exact Dict.lookup_insert_of_ne h

theorem rollupNode_obj (fields : Fields) :
    rollupNode rules known (.obj fields) =
      (rollupFields rules known fields).map fun below =>
        let merged := below.2.foldl addOnce
          (cleanUsernames rules known ((fields.lookup "assigneeUsernames").getD .null))
        (.obj (withAssignees below.1 merged), merged) := by
  rw [rollupNode]
  cases rollupFields rules known fields <;> rfl

/-- The children of rolled up fields are missing as before, or rolled up one by one. -/
theorem children_of_rollupFields {fields : Fields} {below : Fields × List String}
    (h : rollupFields rules known fields = .ok below)
    (hchildren : (fields.lookup "children").getD .null = .null ∨
      ∃ nodes, (fields.lookup "children").getD .null = .arr nodes) :
    ((fields.lookup "children").getD .null = .null ∧
        (below.1.lookup "children").getD .null = .null) ∨
      ∃ nodes nodes', (fields.lookup "children").getD .null = .arr nodes ∧
        (below.1.lookup "children").getD .null = .arr nodes' ∧
          List.Forall₂ (Rolls rules known) nodes nodes' := by
  rw [rollupFields_eq] at h
  cases hlookup : fields.lookup "children" with
  | none =>
      rw [hlookup] at h
      cases h
      exact Or.inl ⟨rfl, by rw [hlookup]; rfl⟩
  | some value =>
      rw [hlookup] at h hchildren
      dsimp only at h
      rcases hchildren with hnull | ⟨nodes, harr⟩
      · cases hnull
        cases h
        exact Or.inl ⟨rfl, by rw [Dict.lookup_insert_self]; rfl⟩
      · cases harr
        unfold rollupList at h
        cases hnodes : rollupNodes rules known nodes with
        | error exc =>
            rw [hnodes] at h
            cases h
        | ok rolled =>
            rw [hnodes] at h
            cases h
            refine Or.inr ⟨nodes, rolled.1, rfl, ?_, rolls_of_rollupNodes hnodes⟩
            dsimp only
            rw [Dict.lookup_insert_self]
            rfl

theorem lookup_of_rollupFields {fields : Fields} {below : Fields × List String} {key : String}
    (h : rollupFields rules known fields = .ok below) (hkey : key ≠ "children") :
    below.1.lookup key = fields.lookup key := by
  rw [rollupFields_eq] at h
  split at h
  · cases h
    rfl
  next value _ =>
    cases hvalue : rollupList rules known value with
    | error exc =>
        rw [hvalue] at h
        cases h
    | ok rolled =>
        rw [hvalue] at h
        cases h
        exact Dict.lookup_insert_of_ne hkey

/-- A rolled up tree node differs in its assignees and in its children, which are rolled up. -/
theorem rolls_of_isTreeNode {node rolled : Json} (htree : IsTreeNode node)
    (h : Rolls rules known node rolled) :
    (∃ fields fields', node = .obj fields ∧ rolled = .obj fields' ∧
      ∀ key, key ≠ "assigneeUsernames" → key ≠ "children" →
        fields'.lookup key = fields.lookup key) ∧
      IsTreeNode rolled ∧
      List.Forall₂ (Rolls rules known) (listedChildren node) (listedChildren rolled) := by
  obtain ⟨fields, rfl, hchildren⟩ := htree
  obtain ⟨names, hrolled⟩ : ∃ names, rollupNode rules known (.obj fields) = .ok (rolled, names) := h
  rw [rollupNode_obj] at hrolled
  cases hbelow : rollupFields rules known fields with
  | error exc =>
      rw [hbelow] at hrolled
      cases hrolled
  | ok below =>
      rw [hbelow] at hrolled
      cases hrolled
      have hkept : ∀ {merged : List String},
          (withAssignees below.1 merged).lookup "children" = below.1.lookup "children" :=
        lookup_withAssignees (by decide)
      refine ⟨⟨fields, _, rfl, rfl, fun key hassignees hkey => ?_⟩, ?_⟩
      · rw [lookup_withAssignees hassignees, lookup_of_rollupFields hbelow hkey]
      · unfold IsTreeNode listedChildren
        dsimp only
        rcases children_of_rollupFields hbelow hchildren with
          ⟨hnull, hnull'⟩ | ⟨nodes, nodes', harr, harr', hrolls⟩
        · refine ⟨⟨_, rfl, Or.inl ?_⟩, ?_⟩
          · rw [hkept, hnull']
          · rw [hkept, hnull, hnull']
            exact List.Forall₂.nil
        · refine ⟨⟨_, rfl, Or.inr ⟨nodes', ?_⟩⟩, ?_⟩
          · rw [hkept, harr']
          · rw [hkept, harr, harr']
            exact hrolls

/-- A tree node whose children can be rolled up can be. -/
theorem rollupNode_ok {node : Json} (htree : IsTreeNode node)
    (h : ∃ below, rollupNodes rules known (listedChildren node) = .ok below) :
    ∃ rolled, rollupNode rules known node = .ok rolled := by
  obtain ⟨fields, rfl, hchildren⟩ := htree
  obtain ⟨below, hbelow⟩ := h
  dsimp only [listedChildren] at hbelow
  suffices hfields : ∃ below, rollupFields rules known fields = .ok below by
    obtain ⟨below, hfields⟩ := hfields
    rw [rollupNode_obj, hfields]
    exact ⟨_, rfl⟩
  rw [rollupFields_eq]
  cases hlookup : fields.lookup "children" with
  | none => exact ⟨_, rfl⟩
  | some value =>
      rw [hlookup] at hchildren hbelow
      rcases hchildren with hnull | ⟨nodes, harr⟩
      · cases hnull
        exact ⟨_, rfl⟩
      · cases harr
        dsimp only [Option.getD_some] at hbelow ⊢
        rw [rollupList, hbelow]
        exact ⟨_, rfl⟩

theorem rollupNodes_ok {nodes : List Json}
    (h : ∀ node ∈ nodes, ∃ rolled, rollupNode rules known node = .ok rolled) :
    ∃ below, rollupNodes rules known nodes = .ok below := by
  induction nodes with
  | nil => exact ⟨_, rfl⟩
  | cons node nodes ih =>
      obtain ⟨⟨first, hfirst⟩, hrest⟩ := List.forall_mem_cons.1 h
      obtain ⟨rest, hrest⟩ := ih hrest
      unfold rollupNodes
      rw [hfirst, hrest]
      split <;> exact ⟨_, rfl⟩

/-- Rolling up a tree does not raise. -/
theorem rollup_of_shaped {levels : ℕ} {nodes : List Json} (h : Shaped levels nodes) :
    ∀ node ∈ nodes, ∃ rolled, rollupNode rules known node = .ok rolled := by
  induction levels generalizing nodes with
  | zero =>
      cases h
      exact List.forall_mem_nil _
  | succ levels ih =>
      intro node hnode
      exact rollupNode_ok (h node hnode).1 (rollupNodes_ok (ih (h node hnode).2))

/-- All roots of a tree are rolled up. -/
theorem rollup_forest {levels : ℕ} {nodes : List Json} (h : Shaped levels nodes) :
    ∃ rolled, nodes.mapM (rollupNode rules known) = .ok rolled ∧
      List.Forall₂ (Rolls rules known) nodes (rolled.map Prod.fst) := by
  have hok : ∀ node ∈ nodes, ∃ rolled, rollupNode rules known node = .ok rolled :=
    rollup_of_shaped h
  clear h
  induction nodes with
  | nil => exact ⟨[], rfl, List.Forall₂.nil⟩
  | cons node nodes ih =>
      obtain ⟨⟨first, hfirst⟩, hrest⟩ := List.forall_mem_cons.1 hok
      obtain ⟨rest, hmap, hrolls⟩ := ih hrest
      refine ⟨first :: rest, ?_, List.Forall₂.cons ?_ hrolls⟩
      · rw [List.mapM_cons, hfirst, hmap]
        rfl
      · cases node with
        | obj fields => exact ⟨first.2, hfirst⟩
        | _ => cases hfirst

/-- A node of a tree, and what is rolled up from it. -/
def TreeRolls (rules : TextRules) (known : Dict String String) (node rolled : Json) : Prop :=
  (∃ levels, Shaped levels [node]) ∧ Rolls rules known node rolled

theorem isTreeNode_of_shaped {levels : ℕ} {node : Json} (h : Shaped levels [node]) :
    IsTreeNode node ∧ ∀ child ∈ listedChildren node, ∃ levels, Shaped levels [child] := by
  cases levels with
  | zero => cases h
  | succ levels =>
      obtain ⟨htree, hbelow⟩ := h node (List.mem_singleton_self node)
      refine ⟨htree, fun child hchild => ⟨levels, ?_⟩⟩
      cases levels with
      | zero =>
          rw [hbelow] at hchild
          cases hchild
      | succ levels =>
          exact List.forall_mem_singleton.2 (hbelow child hchild)

theorem forall₂_treeRolls {nodes rolled : List Json}
    (hshaped : ∀ node ∈ nodes, ∃ levels, Shaped levels [node])
    (h : List.Forall₂ (Rolls rules known) nodes rolled) :
    List.Forall₂ (TreeRolls rules known) nodes rolled := by
  induction h with
  | nil => exact List.Forall₂.nil
  | cons hfirst _ ih =>
      obtain ⟨hnode, hrest⟩ := List.forall_mem_cons.1 hshaped
      exact List.Forall₂.cons ⟨hnode, hfirst⟩ (ih hrest)

/-- The forest that is rolled up has related nodes at the same addresses. -/
theorem treeRolls_nodeAt {levels : ℕ} {items rolled : List Json} (hshaped : Shaped levels items)
    (hrolls : List.Forall₂ (Rolls rules known) items rolled) (p : Path) :
    Option.Rel (TreeRolls rules known) (nodeAt listedChildren items p)
      (nodeAt listedChildren rolled p) := by
  refine Forest.rel_nodeAt (fun node rolled h => ?_) (forall₂_treeRolls ?_ hrolls) p
  · obtain ⟨⟨levels, hnode⟩, hrolled⟩ := h
    obtain ⟨htree, hchildren⟩ := isTreeNode_of_shaped hnode
    exact forall₂_treeRolls hchildren (rolls_of_isTreeNode htree hrolled).2.2
  · intro node hnode
    cases levels with
    | zero =>
        rw [hshaped] at hnode
        cases hnode
    | succ levels => exact ⟨levels + 1, List.forall_mem_singleton.2 (hshaped node hnode)⟩

end Rollup

end PrismAgent
