import PrismAgent.Backlog.Cleaning
import PrismAgent.Backlog.TreeGrammar

/-!
# The roll-up of assignees

Rolling up a tree gives every node the assignees of its whole subtree. The recursion merges
the lists of the children into that of the node, each of them free of repetitions; what comes
out is the cleaned names of the subtree, read in preorder, each at its first place.
-/

namespace PrismAgent

open CreateWorkItemTreeTool
open Forest (nodeAt preorder Within)

section Union

variable (rules : TextRules) (known : Dict String String)

/-- What a node has under `assigneeUsernames`. -/
def assigneesIn (node : Json) : Option Json :=
  match node with
  | .obj fields => fields.lookup "assigneeUsernames"
  | _ => none

/-- The cleaned names of the node itself. -/
def ownAssignees (node : Json) : List String :=
  cleanUsernames rules known ((assigneesIn node).getD .null)

/-- The names of a subtree in preorder, with repetitions. -/
def subtreeNames (node : Json) : List String :=
  (preorder listedChildren MAX_WORK_ITEM_TREE_DEPTH [node]).flatMap (ownAssignees rules known)

/-- The names of a subtree in preorder, each once. -/
def preorderUnion (node : Json) : List String := (subtreeNames rules known node).eraseDups

variable {rules known}

theorem preorderUnion_eq (node : Json) :
    preorderUnion rules known node = Once.addAll [] (subtreeNames rules known node) :=
  Once.addAll_nil_eq_eraseDups.symm

/-- The names of a node come before those of its children. -/
theorem subtreeNames_eq {levels : ℕ} {node : Json} (hlevels : levels + 1 ≤ MAX_WORK_ITEM_TREE_DEPTH)
    (h : Shaped levels (listedChildren node)) :
    subtreeNames rules known node =
      ownAssignees rules known node ++
        (listedChildren node).flatMap (subtreeNames rules known) := by
  have hwithin := shaped_iff_within.1 h
  have hchildren : preorder listedChildren MAX_WORK_ITEM_TREE_DEPTH (listedChildren node) =
      preorder listedChildren 2 (listedChildren node) := by
    rw [Forest.preorder_of_within hwithin (by omega),
      Forest.preorder_of_within hwithin (Nat.le_of_succ_le_succ hlevels)]
  have hnode : preorder listedChildren MAX_WORK_ITEM_TREE_DEPTH [node] =
      node :: (listedChildren node).flatMap fun child =>
        preorder listedChildren MAX_WORK_ITEM_TREE_DEPTH [child] := by
    rw [← Forest.preorder_eq_flatMap, hchildren]
    exact List.append_nil _
  unfold subtreeNames
  rw [hnode, List.flatMap_cons, List.flatMap_assoc]

end Union

section Merging

variable {rules : TextRules} {known : Dict String String}

/-- A tree node whose children are rolled up merges their names behind its own. -/
theorem rollupNode_of_children {node : Json} (htree : IsTreeNode node)
    {below : List Json × List String}
    (hbelow : rollupNodes rules known (listedChildren node) = .ok below) :
    ∃ rolled, rollupNode rules known node =
        .ok (rolled, Once.addAll (ownAssignees rules known node) below.2) ∧
      assigneesIn rolled =
        if Once.addAll (ownAssignees rules known node) below.2 = [] then assigneesIn node
        else some (.arr ((Once.addAll (ownAssignees rules known node) below.2).map .str)) := by
  obtain ⟨fields, rfl, hchildren⟩ := htree
  obtain ⟨rolled, hfields⟩ : ∃ rolled, rollupFields rules known fields = .ok (rolled, below.2) := by
    rw [rollupFields_eq]
    dsimp only [listedChildren] at hbelow
    cases hlookup : fields.lookup "children" with
    | none =>
        rw [hlookup] at hbelow
        cases hbelow
        exact ⟨_, rfl⟩
    | some value =>
        rw [hlookup] at hchildren hbelow
        rcases hchildren with hnull | ⟨nodes, harr⟩
        · cases hnull
          cases hbelow
          exact ⟨_, rfl⟩
        · cases harr
          dsimp only [Option.getD_some] at hbelow ⊢
          rw [rollupList, hbelow]
          exact ⟨_, rfl⟩
  have hkept : rolled.lookup "assigneeUsernames" = fields.lookup "assigneeUsernames" :=
    lookup_of_rollupFields hfields (by decide)
  rw [rollupNode_obj, hfields]
  refine ⟨_, rfl, ?_⟩
  change (withAssignees rolled (Once.addAll (ownAssignees rules known (.obj fields))
    below.2)).lookup "assigneeUsernames" = _
  unfold withAssignees
  generalize Once.addAll (ownAssignees rules known (.obj fields)) below.2 = merged
  cases merged with
  | nil => exact hkept
  | cons name merged => exact Dict.lookup_insert_self _ _ _

theorem rollupNodes_eq_ok {nodes : List Json} {names : Json → List String}
    (h : ∀ node ∈ nodes, ∃ rolled, rollupNode rules known node = .ok (rolled, names node)) :
    ∃ rolled, rollupNodes rules known nodes = .ok (rolled, nodes.flatMap names) := by
  induction nodes with
  | nil => exact ⟨[], rfl⟩
  | cons node nodes ih =>
      obtain ⟨⟨first, hfirst⟩, hrest⟩ := List.forall_mem_cons.1 h
      obtain ⟨rest, hrest⟩ := ih hrest
      have hobj : node.isObj = true := by
        cases node with
        | obj fields => rfl
        | _ => cases hfirst
      unfold rollupNodes
      rw [if_pos hobj, hfirst, hrest]
      exact ⟨_, rfl⟩

/-- A node of a tree gets the names of its subtree. -/
theorem rollupNode_eq_ok {levels : ℕ} {nodes : List Json}
    (hlevels : levels ≤ MAX_WORK_ITEM_TREE_DEPTH)
    (h : Shaped levels nodes) : ∀ node ∈ nodes, ∃ rolled,
      rollupNode rules known node = .ok (rolled, preorderUnion rules known node) ∧
        assigneesIn rolled =
          if preorderUnion rules known node = [] then assigneesIn node
          else some (.arr ((preorderUnion rules known node).map .str)) := by
  induction levels generalizing nodes with
  | zero =>
      rw [show nodes = [] from h]
      exact List.forall_mem_nil _
  | succ levels ih =>
      intro node hnode
      obtain ⟨htree, hchildren⟩ := h node hnode
      have hspec : ∀ child ∈ listedChildren node, ∃ rolled,
          rollupNode rules known child = .ok (rolled, preorderUnion rules known child) := by
        intro child hchild
        obtain ⟨rolled, hrolled, -⟩ := ih (Nat.le_of_succ_le hlevels) hchildren child hchild
        exact ⟨rolled, hrolled⟩
      obtain ⟨below, hbelow⟩ := rollupNodes_eq_ok hspec
      have hown : Once.addAll [] (ownAssignees rules known node) = ownAssignees rules known node :=
        Once.addAll_of_nodup nodup_cleanUsernames
      have hmerged : Once.addAll (ownAssignees rules known node)
          ((listedChildren node).flatMap (preorderUnion rules known)) =
            preorderUnion rules known node := by
        calc Once.addAll (ownAssignees rules known node)
              ((listedChildren node).flatMap (preorderUnion rules known))
            = Once.addAll (ownAssignees rules known node)
                ((listedChildren node).flatMap fun child =>
                  Once.addAll [] (subtreeNames rules known child)) := by
              rw [List.flatMap_congr fun child _ => preorderUnion_eq child]
          _ = Once.addAll (ownAssignees rules known node)
                ((listedChildren node).flatMap (subtreeNames rules known)) :=
              Once.addAll_flatMap _ _
          _ = Once.addAll [] (subtreeNames rules known node) := by
              rw [subtreeNames_eq hlevels hchildren, Once.addAll_append, hown]
          _ = preorderUnion rules known node := (preorderUnion_eq node).symm
      rw [← hmerged]
      exact rollupNode_of_children htree hbelow

end Merging

section Repetition

variable {rules : TextRules} {known : Dict String String}

theorem mem_preorderUnion {username : String} {node : Json} :
    username ∈ preorderUnion rules known node ↔
      ∃ below ∈ preorder listedChildren MAX_WORK_ITEM_TREE_DEPTH [node],
        username ∈ ownAssignees rules known below := by
  rw [preorderUnion, List.mem_eraseDups, subtreeNames, List.mem_flatMap]

theorem nodup_preorderUnion {node : Json} : (preorderUnion rules known node).Nodup := by
  rw [preorderUnion_eq]
  exact Once.nodup_addAll List.nodup_nil

/-- The trees that are rolled up have the shape they had. -/
theorem shaped_of_rolls {levels : ℕ} {nodes rolled : List Json} (h : Shaped levels nodes)
    (hrolls : List.Forall₂ (Rolls rules known) nodes rolled) : Shaped levels rolled := by
  induction levels generalizing nodes rolled with
  | zero =>
      rw [show nodes = [] from h] at hrolls
      cases hrolls
      rfl
  | succ levels ih =>
      induction hrolls with
      | nil => exact List.forall_mem_nil _
      | cons hnode _ ihnodes =>
          obtain ⟨⟨htree, hbelow⟩, hrest⟩ := List.forall_mem_cons.1 h
          obtain ⟨-, htree', hchildren⟩ := rolls_of_isTreeNode htree hnode
          exact List.forall_mem_cons.2 ⟨⟨htree', ih hbelow hchildren⟩, ihnodes hrest⟩

/-- A node of a tree that may be created, and what is rolled up from it. -/
def BoundedRolls (rules : TextRules) (known : Dict String String) (node rolled : Json) : Prop :=
  Shaped MAX_WORK_ITEM_TREE_DEPTH [node] ∧ Rolls rules known node rolled

theorem forall₂_boundedRolls {levels : ℕ} {nodes rolled : List Json}
    (hlevels : levels ≤ MAX_WORK_ITEM_TREE_DEPTH) (h : Shaped levels nodes)
    (hrolls : List.Forall₂ (Rolls rules known) nodes rolled) :
    List.Forall₂ (BoundedRolls rules known) nodes rolled := by
  have hwithin := (shaped_iff_within.1 h).mono hlevels
  refine List.forall₂_iff_get.2 ⟨hrolls.length_eq, fun i hi hi' => ⟨?_, ?_⟩⟩
  · exact shaped_iff_within.2 (hwithin.of_mem (List.get_mem _ _))
  · exact (List.forall₂_iff_get.1 hrolls).2 i hi hi'

theorem boundedRolls_children {node rolled : Json} (h : BoundedRolls rules known node rolled) :
    List.Forall₂ (BoundedRolls rules known) (listedChildren node) (listedChildren rolled) := by
  obtain ⟨hshaped, hrolls⟩ := h
  obtain ⟨htree, hbelow⟩ := hshaped node (List.mem_singleton_self node)
  exact forall₂_boundedRolls (Nat.le_succ 2) hbelow (rolls_of_isTreeNode htree hrolls).2.2

/-- What a rolled up node returned, and what it has of its own afterwards. -/
theorem BoundedRolls.spec {node rolled : Json} (h : BoundedRolls rules known node rolled) :
    rollupNode rules known node = .ok (rolled, preorderUnion rules known node) ∧
      assigneesIn rolled =
        if preorderUnion rules known node = [] then assigneesIn node
        else some (.arr ((preorderUnion rules known node).map .str)) := by
  obtain ⟨hshaped, hrolls⟩ := h
  obtain ⟨rolled', hrolled', hassignees⟩ :=
    rollupNode_eq_ok le_rfl hshaped node (List.mem_singleton_self node)
  have hobj : node.isObj = true := by
    cases node with
    | obj fields => rfl
    | _ => cases hrolled'
  unfold Rolls at hrolls
  rw [if_pos hobj] at hrolls
  obtain ⟨names, hnames⟩ := hrolls
  cases hrolled'.symm.trans hnames
  exact ⟨hrolled', hassignees⟩

/-- Where usernames are resolved to themselves, the names of a subtree are clean. -/
theorem cleanUsernames_preorderUnion (hfix : FixesUsernames rules known) (node : Json) :
    cleanUsernames rules known (.arr ((preorderUnion rules known node).map .str)) =
      preorderUnion rules known node := by
  refine cleanUsernames_of_fixed nodup_preorderUnion fun username husername => ?_
  obtain ⟨below, -, hbelow⟩ := mem_preorderUnion.1 husername
  obtain ⟨name, -, hname⟩ := mem_cleanUsernames_iff.1 hbelow
  exact hfix.resolveName_resolved hname

/-- Where usernames are resolved to themselves, a rolled up node has the names of its subtree
as its own. -/
theorem ownAssignees_rolled (hfix : FixesUsernames rules known) {node rolled : Json}
    (h : BoundedRolls rules known node rolled) :
    ownAssignees rules known rolled = preorderUnion rules known node := by
  have hassignees := h.spec.2
  unfold ownAssignees
  rw [hassignees]
  by_cases hempty : preorderUnion rules known node = []
  · rw [if_pos hempty, hempty]
    refine List.eq_nil_iff_forall_not_mem.2 fun username husername => ?_
    have hmem : username ∈ preorderUnion rules known node :=
      mem_preorderUnion.2 ⟨node, List.mem_cons_self, husername⟩
    rw [hempty] at hmem
    cases hmem
  · rw [if_neg hempty]
    exact cleanUsernames_preorderUnion hfix node

/-- A node has the names of what is listed below it. -/
theorem preorderUnion_subset {node below : Json} (h : Shaped MAX_WORK_ITEM_TREE_DEPTH [node])
    (hmem : below ∈ preorder listedChildren MAX_WORK_ITEM_TREE_DEPTH [node]) :
    preorderUnion rules known below ⊆ preorderUnion rules known node := by
  intro username husername
  obtain ⟨deeper, hdeeper, hown⟩ := mem_preorderUnion.1 husername
  exact mem_preorderUnion.2
    ⟨deeper, Forest.mem_preorder_trans (shaped_iff_within.1 h) hmem hdeeper, hown⟩

/-- Rolling up once more finds the same names. -/
theorem preorderUnion_rolled (hfix : FixesUsernames rules known) {node rolled : Json}
    (h : BoundedRolls rules known node rolled) :
    preorderUnion rules known rolled = preorderUnion rules known node := by
  have hlisted : List.Forall₂ (BoundedRolls rules known)
      (preorder listedChildren MAX_WORK_ITEM_TREE_DEPTH [node])
      (preorder listedChildren MAX_WORK_ITEM_TREE_DEPTH [rolled]) :=
    Forest.rel_preorder (fun _ _ => boundedRolls_children) _ (.cons h .nil)
  -- every node of the rolled tree has as its own the names of its subtree
  have hnames : subtreeNames rules known rolled =
      (preorder listedChildren MAX_WORK_ITEM_TREE_DEPTH [node]).flatMap
        (preorderUnion rules known) := by
    unfold subtreeNames
    generalize preorder listedChildren MAX_WORK_ITEM_TREE_DEPTH [node] = nodes at hlisted
    generalize preorder listedChildren MAX_WORK_ITEM_TREE_DEPTH [rolled] = rolled at hlisted
    induction hlisted with
    | nil => rfl
    | cons hfirst _ ih =>
        rw [List.flatMap_cons, List.flatMap_cons, ownAssignees_rolled hfix hfirst, ih]
  have hbelow : ∀ below ∈ preorder listedChildren MAX_WORK_ITEM_TREE_DEPTH [node],
      preorderUnion rules known below ⊆ preorderUnion rules known node := fun _ =>
    preorderUnion_subset h.1
  obtain ⟨rest, hrest⟩ : ∃ rest, preorder listedChildren MAX_WORK_ITEM_TREE_DEPTH [node] =
      node :: rest := ⟨_, rfl⟩
  rw [hrest] at hbelow hnames
  have hself : Once.addAll [] (preorderUnion rules known node) = preorderUnion rules known node :=
    Once.addAll_of_nodup nodup_preorderUnion
  rw [preorderUnion_eq rolled, hnames, List.flatMap_cons, Once.addAll_append, hself]
  refine Once.addAll_of_subset fun username husername => ?_
  obtain ⟨below, hmem, hname⟩ := List.mem_flatMap.1 husername
  exact hbelow below (List.mem_cons_of_mem _ hmem) hname

theorem map_preorderUnion_rolled (hfix : FixesUsernames rules known) {nodes rolled : List Json}
    (h : List.Forall₂ (BoundedRolls rules known) nodes rolled) :
    rolled.map (preorderUnion rules known) = nodes.map (preorderUnion rules known) := by
  induction h with
  | nil => rfl
  | cons hfirst _ ih => rw [List.map_cons, List.map_cons, preorderUnion_rolled hfix hfirst, ih]

/-- What stands further down in a bounded forest is listed below a node. -/
theorem mem_preorder_of_nodeAt {nodes : List Json} (h : Shaped MAX_WORK_ITEM_TREE_DEPTH nodes)
    {p q : Forest.Path} {node below : Json} (hnode : nodeAt listedChildren nodes p = some node)
    (hbelow : nodeAt listedChildren nodes (p ++ q) = some below) :
    below ∈ preorder listedChildren MAX_WORK_ITEM_TREE_DEPTH [node] := by
  have hne : p ≠ [] := by
    rintro rfl
    cases hnode
  rw [Forest.nodeAt_append hne, hnode] at hbelow
  have hwithin := (shaped_iff_within.1 h).of_nodeAt hnode
  exact Forest.mem_preorder.2 ⟨_, hbelow, (Forest.within_iff.1 hwithin _ _ hbelow).2⟩

/-- The roots of a forest return the names of their subtrees. -/
theorem returned_names {nodes : List Json} {rolled : List (Json × List String)}
    (h : Shaped MAX_WORK_ITEM_TREE_DEPTH nodes)
    (hmap : nodes.mapM (rollupNode rules known) = .ok rolled) :
    rolled.map Prod.snd = nodes.map (preorderUnion rules known) := by
  have hspec := @rollupNode_eq_ok rules known _ _ le_rfl h
  clear h
  induction nodes generalizing rolled with
  | nil =>
      cases hmap
      rfl
  | cons node nodes ih =>
      obtain ⟨⟨first, hfirst, -⟩, hrest⟩ := List.forall_mem_cons.1 hspec
      rw [List.mapM_cons, hfirst] at hmap
      cases hnodes : nodes.mapM (rollupNode rules known) with
      | error exc =>
          rw [hnodes] at hmap
          cases hmap
      | ok rest =>
          rw [hnodes] at hmap
          cases hmap
          exact congrArg (_ :: ·) (ih hnodes hrest)

end Repetition

/-- Rolling up a tree that may be created returns for every node the names of its subtree in
preorder, each once, and writes them to the node where there are any. Where usernames are
resolved to themselves, rolling up once more changes no list. -/
theorem rollup_is_preorder_union (rules : TextRules) (known : Dict String String)
    {items : List Json} (hvalid : validateWorkItemTree (some items) = none) :
    ∃ rolled, items.mapM (rollupNode rules known) = .ok rolled ∧
      rolled.map Prod.snd = items.map (preorderUnion rules known) ∧
      (∀ p node, nodeAt listedChildren items p = some node →
        ∃ node', nodeAt listedChildren (rolled.map Prod.fst) p = some node' ∧
          rollupNode rules known node = .ok (node', preorderUnion rules known node) ∧
          (assigneesIn node' =
            if preorderUnion rules known node = [] then assigneesIn node
            else some (.arr ((preorderUnion rules known node).map .str))) ∧
          ∀ q below, nodeAt listedChildren items (p ++ q) = some below →
            preorderUnion rules known below ⊆ preorderUnion rules known node) ∧
      (FixesUsernames rules known →
        ∃ again, (rolled.map Prod.fst).mapM (rollupNode rules known) = .ok again ∧
          again.map Prod.snd = rolled.map Prod.snd ∧
          ∀ p, (nodeAt listedChildren (again.map Prod.fst) p).map assigneesIn =
            (nodeAt listedChildren (rolled.map Prod.fst) p).map assigneesIn) := by
  obtain ⟨total, hwalk⟩ := walk_of_valid hvalid
  have hshaped : Shaped MAX_WORK_ITEM_TREE_DEPTH items := shaped_of_walk hwalk
  obtain ⟨rolled, hmap, hrolls⟩ := @rollup_forest rules known _ _ hshaped
  have hbounded := forall₂_boundedRolls le_rfl hshaped hrolls
  have hnodes := fun p => Forest.rel_nodeAt (fun _ _ => boundedRolls_children) hbounded p
  refine ⟨rolled, hmap, returned_names hshaped hmap, fun p node hnode => ?_, fun hfix => ?_⟩
  · have hrel := hnodes p
    rw [hnode] at hrel
    cases hnode' : nodeAt listedChildren (rolled.map Prod.fst) p with
    | none =>
        rw [hnode'] at hrel
        cases hrel
    | some node' =>
        rw [hnode'] at hrel
        obtain ⟨hbounded⟩ := hrel
        refine ⟨node', rfl, hbounded.spec.1, hbounded.spec.2, fun q below hbelow => ?_⟩
        exact preorderUnion_subset hbounded.1 (mem_preorder_of_nodeAt hshaped hnode hbelow)
  · have hshaped' := shaped_of_rolls hshaped hrolls
    obtain ⟨again, hmap', hrolls'⟩ := @rollup_forest rules known _ _ hshaped'
    have hbounded' := forall₂_boundedRolls le_rfl hshaped' hrolls'
    refine ⟨again, hmap', ?_, fun p => ?_⟩
    · rw [returned_names hshaped' hmap', returned_names hshaped hmap,
        map_preorderUnion_rolled hfix hbounded]
    · have hrel := hnodes p
      have hrel' := Forest.rel_nodeAt (fun _ _ => boundedRolls_children) hbounded' p
      generalize nodeAt listedChildren (again.map Prod.fst) p = node'' at hrel'
      generalize nodeAt listedChildren (rolled.map Prod.fst) p = node' at hrel hrel'
      generalize nodeAt listedChildren items p = node at hrel
      cases hrel' with
      | none => rfl
      | some hagain =>
          obtain ⟨hfirst⟩ := hrel
          rw [Option.map_some, Option.map_some, hagain.spec.2, preorderUnion_rolled hfix hfirst,
            hfirst.spec.2]
          split
          · rfl
          · rfl

/-- A task with two levels below it, where one name stands twice. -/
def teamForest : List Json :=
  [.obj [("title", .str "Release"), ("assigneeUsernames", .str "Ann"),
    ("children", .arr
      [.obj [("title", .str "Build"), ("assigneeUsernames", .arr [.str "bob", .str "ann"]),
        ("children", .arr [.obj [("title", .str "Test"), ("assigneeUsernames", .str "cy")]])],
      .obj [("title", .str "Announce"), ("assigneeUsernames", .arr [.str "BOB", .str "ghost"])]])]]

/-- The resolver of three members. -/
def teamNames : Dict String String := [("ann", "ann"), ("bob", "bob"), ("cy", "cy")]

theorem rollup_is_preorder_union_sample :
    ∃ rolled, teamForest.mapM (rollupNode plainRules teamNames) = .ok rolled ∧
      rolled.map Prod.snd = [["ann", "bob", "cy"]] := by
  have hvalid : validateWorkItemTree (some teamForest) = none := by decide
  obtain ⟨rolled, hmap, hnames, -⟩ := rollup_is_preorder_union plainRules teamNames hvalid
  exact ⟨rolled, hmap, hnames.trans (by decide)⟩

end PrismAgent
