import Mathlib.Data.List.Basic
import Mathlib.Data.List.Forall2

/-!
# The levels of a forest

A node of a forest is addressed by the numbers of the branches that lead to it. Level by level
the nodes are listed breadth first: shorter addresses before longer ones, and addresses of
one length in lexicographic order.
-/

namespace Forest

variable {α : Type*} (children : α → List α)

/-- The numbers of the branches that lead to a node, from a root on. -/
abbrev Path := List ℕ

/-- The node at an address. -/
def nodeAt (roots : List α) : Path → Option α
  | [] => none
  | [i] => roots[i]?
  | i :: j :: p => roots[i]?.bind fun a => nodeAt (children a) (j :: p)

/-- The nodes below an address, each with its own. -/
def numbered (p : Path) (nodes : List α) : List (Path × α) :=
  nodes.zipIdx.map fun entry => (p ++ [entry.2], entry.1)

/-- The level below a level. -/
def below (level : List (Path × α)) : List (Path × α) :=
  level.flatMap fun entry => numbered entry.1 (children entry.2)

def level (roots : List α) : ℕ → List (Path × α)
  | 0 => numbered [] roots
  | n + 1 => below children (level roots n)

/-- The first `n` levels, one after the other. -/
def levels (roots : List α) (n : ℕ) : List (Path × α) :=
  (List.range n).flatMap (level children roots)

/-- The order of a breadth-first listing. -/
def Before (p q : Path) : Prop := p.length < q.length ∨ (p.length = q.length ∧ p < q)

/-- The list has the address of every node once, level by level. -/
structure IsLevelOrder (roots : List α) (paths : List Path) : Prop where
  mem_iff : ∀ p, p ∈ paths ↔ (nodeAt children roots p).isSome = true
  sorted : paths.Pairwise Before

section Addresses

variable {children} {roots : List α}

theorem nodeAt_snoc {p : Path} (hp : p ≠ []) (i : ℕ) :
    nodeAt children roots (p ++ [i]) =
      (nodeAt children roots p).bind fun a => (children a)[i]? := by
  induction p generalizing roots with
  | nil => exact absurd rfl hp
  | cons j p ih =>
      cases p with
      | nil => rfl
      | cons k p =>
          have htail : ∀ {nodes : List α}, nodeAt children nodes (k :: p ++ [i]) =
              (nodeAt children nodes (k :: p)).bind fun a => (children a)[i]? :=
            ih (List.cons_ne_nil k p)
          simp only [List.cons_append] at htail
          simp only [List.cons_append, nodeAt, htail, Option.bind_assoc]

theorem mem_numbered {p q : Path} {nodes : List α} {a : α} :
    (q, a) ∈ numbered p nodes ↔ ∃ i, q = p ++ [i] ∧ nodes[i]? = some a := by
  unfold numbered
  rw [List.mem_map]
  constructor
  · rintro ⟨⟨b, i⟩, hmem, heq⟩
    cases heq
    exact ⟨i, rfl, List.mem_zipIdx_iff_getElem?.1 hmem⟩
  · rintro ⟨i, rfl, hnode⟩
    exact ⟨(a, i), List.mem_zipIdx_iff_getElem?.2 hnode, rfl⟩

/-- A level holds the nodes with addresses of its length. -/
theorem mem_level {n : ℕ} {p : Path} {a : α} :
    (p, a) ∈ level children roots n ↔
      p.length = n + 1 ∧ nodeAt children roots p = some a := by
  induction n generalizing p a with
  | zero =>
      rw [level, mem_numbered]
      constructor
      · rintro ⟨i, rfl, hnode⟩
        exact ⟨rfl, hnode⟩
      · rintro ⟨hlength, hnode⟩
        obtain ⟨i, rfl⟩ := List.length_eq_one_iff.1 hlength
        exact ⟨i, rfl, hnode⟩
  | succ n ih =>
      rw [level, below, List.mem_flatMap]
      constructor
      · rintro ⟨⟨q, b⟩, hlevel, hmem⟩
        obtain ⟨i, rfl, hnode⟩ := mem_numbered.1 hmem
        obtain ⟨hlength, hparent⟩ := ih.1 hlevel
        have hq : q ≠ [] := by
          rintro rfl
          cases hlength
        refine ⟨by simpa using hlength, ?_⟩
        rw [nodeAt_snoc hq, hparent]
        exact hnode
      · rintro ⟨hlength, hnode⟩
        obtain ⟨q, i, rfl⟩ : ∃ q i, p = q ++ [i] := by
          rcases List.eq_nil_or_concat p with rfl | ⟨q, i, rfl⟩
          · cases hlength
          · exact ⟨q, i, List.concat_eq_append⟩
        have hqlength : q.length = n + 1 := by simpa using hlength
        have hq : q ≠ [] := by
          rintro rfl
          cases hqlength
        rw [nodeAt_snoc hq] at hnode
        obtain ⟨b, hparent, hchild⟩ := Option.bind_eq_some_iff.1 hnode
        exact ⟨(q, b), ih.2 ⟨hqlength, hparent⟩, mem_numbered.2 ⟨i, rfl, hchild⟩⟩

end Addresses

section Order

variable {children} {roots : List α}

theorem append_lt_append {p q x y : Path} (hlength : p.length = q.length) (h : p < q) :
    p ++ x < q ++ y := by
  induction p generalizing q with
  | nil =>
      cases List.length_eq_zero_iff.1 hlength.symm
      exact absurd h (List.not_lt_nil [])
  | cons i p ih =>
      cases q with
      | nil => cases hlength
      | cons j q =>
          rw [List.cons_append, List.cons_append, List.cons_lt_cons_iff]
          refine (List.cons_lt_cons_iff.1 h).imp id fun htail => ?_
          exact ⟨htail.1, ih (Nat.succ.inj hlength) htail.2⟩

theorem numbered_paths (p : Path) (nodes : List α) :
    (numbered p nodes).map Prod.fst = (List.range nodes.length).map fun i => p ++ [i] := by
  unfold numbered
  rw [List.map_map, List.range_eq_range', ← List.zipIdx_map_snd 0 nodes, List.map_map]
  rfl

theorem numbered_sorted (p : Path) (nodes : List α) :
    ((numbered p nodes).map Prod.fst).Pairwise (· < ·) := by
  rw [numbered_paths, List.pairwise_map]
  refine List.pairwise_lt_range.imp fun h => ?_
  exact List.append_left_lt (List.cons_lt_cons_iff.2 (Or.inl h))

/-- Within a level the addresses ascend. -/
theorem level_sorted (n : ℕ) :
    ((level children roots n).map Prod.fst).Pairwise (· < ·) := by
  induction n with
  | zero => exact numbered_sorted [] roots
  | succ n ih =>
      rw [List.pairwise_map] at ih
      rw [level, below, List.map_flatMap, List.pairwise_flatMap]
      refine ⟨fun entry _ => numbered_sorted _ _, ?_⟩
      refine ih.imp_of_mem fun {entry entry'} hmem hmem' hlt path hpath path' hpath' => ?_
      obtain ⟨⟨q, a⟩, hq, rfl⟩ := List.mem_map.1 hpath
      obtain ⟨⟨q', a'⟩, hq', rfl⟩ := List.mem_map.1 hpath'
      obtain ⟨i, rfl, -⟩ := mem_numbered.1 hq
      obtain ⟨i', rfl, -⟩ := mem_numbered.1 hq'
      have hlength := (mem_level.1 hmem).1.trans (mem_level.1 hmem').1.symm
      exact append_lt_append hlength hlt

theorem mem_levels {n : ℕ} {p : Path} {a : α} :
    (p, a) ∈ levels children roots n ↔
      p.length ≤ n ∧ nodeAt children roots p = some a := by
  unfold levels
  simp only [List.mem_flatMap, List.mem_range, mem_level]
  constructor
  · rintro ⟨m, hm, hlength, hnode⟩
    exact ⟨by omega, hnode⟩
  · rintro ⟨hlength, hnode⟩
    have hp : p.length ≠ 0 := by
      intro hzero
      rw [List.length_eq_zero_iff.1 hzero] at hnode
      cases hnode
    exact ⟨p.length - 1, by omega, by omega, hnode⟩

theorem levels_sorted (n : ℕ) :
    ((levels children roots n).map Prod.fst).Pairwise Before := by
  have hlevel : ∀ {m : ℕ} {p : Path}, p ∈ (level children roots m).map Prod.fst →
      p.length = m + 1 := by
    intro m p hmem
    obtain ⟨⟨q, a⟩, hq, rfl⟩ := List.mem_map.1 hmem
    exact (mem_level.1 hq).1
  unfold levels
  rw [List.map_flatMap, List.pairwise_flatMap]
  constructor
  · intro m _
    refine (level_sorted m).imp_of_mem fun hp hq hlt => ?_
    exact Or.inr ⟨(hlevel hp).trans (hlevel hq).symm, hlt⟩
  · refine List.pairwise_lt_range.imp fun {m m'} hlt p hp q hq => Or.inl ?_
    rw [hlevel hp, hlevel hq]
    omega

/-- The levels list all nodes, once there are as many levels as the forest is deep. -/
theorem levels_isLevelOrder {n : ℕ}
    (h : ∀ p, (nodeAt children roots p).isSome = true → p.length ≤ n) :
    IsLevelOrder children roots ((levels children roots n).map Prod.fst) where
  mem_iff p := by
    rw [List.mem_map]
    constructor
    · rintro ⟨⟨q, a⟩, hmem, rfl⟩
      rw [(mem_levels.1 hmem).2]
      rfl
    · intro hsome
      obtain ⟨a, ha⟩ := Option.isSome_iff_exists.1 hsome
      exact ⟨(p, a), mem_levels.2 ⟨h p hsome, ha⟩, rfl⟩
  sorted := levels_sorted n

/-- Below the deepest level there is nothing. -/
theorem level_eq_nil {n : ℕ}
    (h : ∀ p, (nodeAt children roots p).isSome = true → p.length ≤ n) :
    level children roots n = [] := by
  refine List.eq_nil_iff_forall_not_mem.2 fun ⟨p, a⟩ hmem => ?_
  obtain ⟨hlength, hnode⟩ := mem_level.1 hmem
  have hle := h p (by rw [hnode]; rfl)
  omega

theorem levels_succ (n : ℕ) :
    levels children roots (n + 1) = levels children roots n ++ level children roots n := by
  unfold levels
  rw [List.range_succ, List.flatMap_append, List.flatMap_singleton]

theorem levels_eq_of_level_eq_nil {n : ℕ} (h : level children roots n = []) (m : ℕ) :
    level children roots (n + m) = [] ∧
      levels children roots (n + m) = levels children roots n := by
  induction m with
  | zero => exact ⟨h, rfl⟩
  | succ m ih =>
      rw [← Nat.add_assoc, level, below, levels_succ, ih.1, ih.2]
      exact ⟨rfl, List.append_nil _⟩

end Order

section Relation

variable {β : Type*} {children} {children' : β → List β} {R : α → β → Prop}

theorem rel_getElem? {xs : List α} {ys : List β} (h : List.Forall₂ R xs ys) (i : ℕ) :
    Option.Rel R xs[i]? ys[i]? := by
  induction h generalizing i with
  | nil => exact Option.Rel.none
  | cons hfirst _ ih =>
      cases i with
      | zero => exact Option.Rel.some hfirst
      | succ i => exact ih i

/-- Forests with related roots, whose related nodes have related children, have related nodes
at all addresses. -/
theorem rel_nodeAt (hchildren : ∀ a b, R a b → List.Forall₂ R (children a) (children' b))
    {roots : List α} {roots' : List β} (hroots : List.Forall₂ R roots roots') (p : Path) :
    Option.Rel R (nodeAt children roots p) (nodeAt children' roots' p) := by
  induction p generalizing roots roots' with
  | nil => exact Option.Rel.none
  | cons i p ih =>
      have hnode := rel_getElem? hroots i
      cases p with
      | nil => exact hnode
      | cons j p =>
          unfold nodeAt
          generalize roots[i]? = node at hnode
          generalize roots'[i]? = node' at hnode
          cases hnode with
          | none => exact Option.Rel.none
          | some hrel => exact ih (hchildren _ _ hrel)

end Relation

end Forest
