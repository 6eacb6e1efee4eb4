import PrismAgent.Backlog.TreeShape
import PrismAgent.Forest.Preorder

/-!
# The grammar of work item trees

The validation walks down a tree with one count of the nodes for all levels, and stops at the
first thing that is wrong. What it accepts is a condition on the addresses of the tree: every
node is an object with a title, no address is longer than the depth allowed, and there are no
more addresses than nodes allowed.
-/

namespace PrismAgent

open CreateWorkItemTreeTool
open Forest (nodeAt preorder Within addresses)

/-- `validate_work_item_tree` of any value: one that is no list is refused like an empty list. -/
def validateValue : Json → Option String
  | .arr items => validateWorkItemTree (some items)
  | _ => validateWorkItemTree none

/-- An object with a title that is not blank, whose children are absent, null or a list. -/
def IsTitledNode (node : Json) : Prop :=
  ∃ fields, node = .obj fields ∧ hasText fields "title" = true ∧
    ((fields.lookup "children").getD .null = .null ∨
      ∃ nodes, (fields.lookup "children").getD .null = .arr nodes)

/-- The trees that may be created. -/
structure TreeGrammar (items : List Json) : Prop where
  nonempty : items ≠ []
  nodes : ∀ p node, nodeAt listedChildren items p = some node → IsTitledNode node
  depth : ∀ p ∈ addresses listedChildren items, p.length ≤ 3
  size : (addresses listedChildren items).ncard ≤ 100

section Walk

/-- A loop that counts: it goes through where every entry is in order, and the count stays
within the limit. -/
theorem foldlM_count_iff {α ε : Type} {check : ℕ → α → Except ε ℕ} {P : α → Prop} {size : α → ℕ}
    {limit : ℕ}
    (hcheck : ∀ x count total, count ≤ limit →
      (check count x = .ok total ↔ P x ∧ total = count + size x ∧ total ≤ limit))
    (xs : List α) {count : ℕ} (hcount : count ≤ limit) (total : ℕ) :
    xs.foldlM check count = .ok total ↔
      (∀ x ∈ xs, P x) ∧ total = count + (xs.map size).sum ∧ total ≤ limit := by
  induction xs generalizing count with
  | nil =>
      have hpure : (List.foldlM check count [] : Except ε ℕ) = .ok count := rfl
      rw [hpure, Except.ok.injEq]
      simp only [List.not_mem_nil, false_imp_iff, implies_true, List.map_nil, List.sum_nil,
        true_and]
      omega
  | cons x xs ih =>
      rw [List.foldlM_cons, List.forall_mem_cons, List.map_cons, List.sum_cons]
      cases hx : check count x with
      | error e =>
          refine iff_of_false (fun h => by cases h) ?_
          rintro ⟨⟨hPx, -⟩, rfl, hlimit⟩
          have hok := (hcheck x count (count + size x) hcount).2 ⟨hPx, rfl, by omega⟩
          rw [hx] at hok
          cases hok
      | ok next =>
          obtain ⟨hPx, rfl, hnext⟩ := (hcheck x count next hcount).1 hx
          change xs.foldlM check (count + size x) = .ok total ↔ _
          rw [ih hnext, Nat.add_assoc]
          exact and_congr_left fun _ => (and_iff_right hPx).symm

theorem length_preorder_succ (levels : ℕ) (nodes : List Json) :
    (preorder listedChildren (levels + 1) nodes).length =
      (nodes.map fun node =>
        (preorder listedChildren levels (listedChildren node)).length + 1).sum := by
  rw [Forest.preorder_succ, List.length_flatMap]
  rfl

/-- A node passes where it is in order and what is below it passes. -/
theorem checkNode_eq_ok_iff {levels count : ℕ} {node : Json}
    (hwalk : ∀ nodes count total, nodes ≠ [] → count ≤ MAX_WORK_ITEM_TREE_ITEMS →
      (walk levels nodes count = .ok total ↔ Within listedChildren IsTitledNode levels nodes ∧
        total = count + (preorder listedChildren levels nodes).length ∧
          total ≤ MAX_WORK_ITEM_TREE_ITEMS))
    (total : ℕ) :
    checkNode (walk levels) count node = .ok total ↔
      (IsTitledNode node ∧ Within listedChildren IsTitledNode levels (listedChildren node)) ∧
        total = count + ((preorder listedChildren levels (listedChildren node)).length + 1) ∧
          total ≤ MAX_WORK_ITEM_TREE_ITEMS := by
  have hrefused : ∀ {error : String} {Q : Prop}, ¬ Q →
      ((Except.error error : Except String ℕ) = .ok total ↔ Q) :=
    fun hQ => iff_of_false (fun h => by cases h) hQ
  -- a node without children below it counts for one
  have hleaf : ∀ {Q : Prop}, Q → count + 1 ≤ MAX_WORK_ITEM_TREE_ITEMS →
      ((Except.ok (count + 1) : Except String ℕ) = .ok total ↔
        (Q ∧ Within listedChildren IsTitledNode levels []) ∧
          total = count + ((preorder listedChildren levels []).length + 1) ∧
            total ≤ MAX_WORK_ITEM_TREE_ITEMS) := by
    intro Q hQ hcount
    rw [Except.ok.injEq]
    simp only [hQ, Forest.within_nil, and_self, Forest.preorder_nil, List.length_nil, true_and]
    omega
  unfold checkNode
  cases node with
  | obj fields =>
      dsimp only [listedChildren]
      by_cases htitle : hasText fields "title" = true
      · rw [if_neg (by simp [htitle])]
        by_cases hfull : MAX_WORK_ITEM_TREE_ITEMS < count + 1
        · rw [if_pos hfull]
          refine hrefused ?_
          rintro ⟨-, rfl, hlimit⟩
          omega
        · rw [if_neg hfull]
          have hcount : count + 1 ≤ MAX_WORK_ITEM_TREE_ITEMS := Nat.le_of_not_lt hfull
          cases hchildren : (fields.lookup "children").getD .null with
          | null => exact hleaf ⟨fields, rfl, htitle, .inl hchildren⟩ hcount
          | arr nodes =>
              have hnode : IsTitledNode (.obj fields) :=
                ⟨fields, rfl, htitle, .inr ⟨nodes, hchildren⟩⟩
              cases nodes with
              | nil => exact hleaf hnode hcount
              | cons child nodes =>
                  dsimp only [List.isEmpty_cons]
                  rw [if_neg Bool.false_ne_true, hwalk _ _ _ (List.cons_ne_nil _ _) hcount,
                    and_iff_right hnode, Nat.add_assoc, Nat.add_comm 1]
          | _ =>
              refine hrefused ?_
              rintro ⟨⟨⟨fields', hfields, -, hnull | ⟨nodes, harr⟩⟩, -⟩, -⟩
              · cases hfields
                rw [hchildren] at hnull
                cases hnull
              · cases hfields
                rw [hchildren] at harr
                cases harr
      · rw [if_pos (by simpa using htitle)]
        refine hrefused ?_
        rintro ⟨⟨⟨fields', hfields, htitle', -⟩, -⟩, -⟩
        cases hfields
        exact htitle htitle'
  | _ =>
      refine hrefused ?_
      rintro ⟨⟨⟨fields', hfields, -⟩, -⟩, -⟩
      cases hfields

/-- The walk passes exactly the trees of titled nodes, and adds up their nodes. -/
theorem walk_eq_ok_iff {levels count : ℕ} {nodes : List Json} (hnodes : nodes ≠ [])
    (hcount : count ≤ MAX_WORK_ITEM_TREE_ITEMS) (total : ℕ) :
    walk levels nodes count = .ok total ↔
      Within listedChildren IsTitledNode levels nodes ∧
        total = count + (preorder listedChildren levels nodes).length ∧
          total ≤ MAX_WORK_ITEM_TREE_ITEMS := by
  induction levels generalizing nodes count total with
  | zero =>
      refine iff_of_false (fun h => by cases h) ?_
      rintro ⟨hnil, -⟩
      exact hnodes hnil
  | succ levels ih =>
      rw [length_preorder_succ]
      refine foldlM_count_iff (P := fun node => IsTitledNode node ∧
        Within listedChildren IsTitledNode levels (listedChildren node))
        (fun node count total _ => ?_)
        nodes hcount total
      exact checkNode_eq_ok_iff (fun _ _ total hnodes hcount => ih hnodes hcount total) total

end Walk

/-- The validation accepts what the walk goes through. -/
theorem validateWorkItemTree_eq_none_iff (items : List Json) :
    validateWorkItemTree (some items) = none ↔
      items ≠ [] ∧ Within listedChildren IsTitledNode MAX_WORK_ITEM_TREE_DEPTH items ∧
        (preorder listedChildren MAX_WORK_ITEM_TREE_DEPTH items).length ≤
          MAX_WORK_ITEM_TREE_ITEMS := by
  cases items with
  | nil => exact iff_of_false (fun h => by cases h) fun h => h.1 rfl
  | cons node nodes =>
      have hnonempty : node :: nodes ≠ [] := List.cons_ne_nil _ _
      have hwalk := @walk_eq_ok_iff MAX_WORK_ITEM_TREE_DEPTH 0 (node :: nodes) hnonempty
        (Nat.zero_le _)
      unfold validateWorkItemTree
      dsimp only [Option.getD_some]
      cases hresult : walk MAX_WORK_ITEM_TREE_DEPTH (node :: nodes) 0 with
      | error error =>
          refine iff_of_false (fun h => by cases h) ?_
          rintro ⟨-, hwithin, hsize⟩
          have hok := (hwalk _).2 ⟨hwithin, rfl, by rwa [Nat.zero_add]⟩
          rw [hresult] at hok
          cases hok
      | ok total =>
          obtain ⟨hwithin, rfl, hsize⟩ := (hwalk total).1 hresult
          exact iff_of_true rfl ⟨hnonempty, hwithin, by rwa [Nat.zero_add] at hsize⟩

theorem shaped_iff_within {levels : ℕ} {nodes : List Json} :
    Shaped levels nodes ↔ Within listedChildren IsTreeNode levels nodes := by
  induction levels generalizing nodes with
  | zero => exact Iff.rfl
  | succ levels ih => exact forall₂_congr fun node _ => and_congr_right fun _ => ih

/-- The validation accepts exactly the trees of the grammar. -/
theorem validate_work_item_tree_iff (value : Json) :
    validateValue value = none ↔ ∃ items, value = .arr items ∧ TreeGrammar items := by
  cases value with
  | arr items =>
      change validateWorkItemTree (some items) = none ↔ _
      rw [validateWorkItemTree_eq_none_iff]
      constructor
      · rintro ⟨hnonempty, hwithin, hsize⟩
        rw [← Forest.ncard_addresses hwithin] at hsize
        refine ⟨items, rfl, hnonempty, fun p node hnode => ?_, fun p hp => ?_, hsize⟩
        · exact (Forest.within_iff.1 hwithin p node hnode).1
        · obtain ⟨node, hnode⟩ := Option.isSome_iff_exists.1 hp
          exact (Forest.within_iff.1 hwithin p node hnode).2
      · rintro ⟨items', hitems, h⟩
        cases hitems
        have hwithin : Within listedChildren IsTitledNode MAX_WORK_ITEM_TREE_DEPTH items :=
          Forest.within_iff.2 fun p node hnode =>
            ⟨h.nodes p node hnode, h.depth p (Option.isSome_iff_exists.2 ⟨node, hnode⟩)⟩
        have hsize := h.size
        rw [Forest.ncard_addresses hwithin] at hsize
        exact ⟨h.nonempty, hwithin, hsize⟩
  | _ =>
      refine iff_of_false (fun h => by cases h) ?_
      rintro ⟨items, hitems, -⟩
      cases hitems

end PrismAgent
