import PrismAgent.Forest.Levels
import Mathlib.Data.Set.Card

/-!
# A forest in preorder

In preorder a node comes before what is below it. `listing` gives the nodes of the first
levels with their addresses, `preorder` the nodes alone. In a forest of bounded depth every
address is listed once, so the listing counts the nodes.
-/

namespace Forest

variable {α : Type*} (children : α → List α)

/-- The nodes on the first `n` levels below an address, each with its own. -/
def listing : ℕ → Path → List α → List (Path × α)
  | 0, _, _ => []
  | n + 1, p, roots => (numbered p roots).flatMap fun entry =>
      entry :: listing n entry.1 (children entry.2)

/-- The nodes on the first `n` levels. -/
def preorder : ℕ → List α → List α
  | 0, _ => []
  | n + 1, roots => roots.flatMap fun a => a :: preorder n (children a)

/-- There are at most `n` levels, and every node meets `P`. -/
def Within (P : α → Prop) : ℕ → List α → Prop
  | 0, roots => roots = []
  | n + 1, roots => ∀ a ∈ roots, P a ∧ Within P n (children a)

/-- The addresses of the nodes. -/
def addresses (roots : List α) : Set Path := {p | (nodeAt children roots p).isSome = true}

section Listing

variable {children} {roots : List α} {P : α → Prop} {n : ℕ} {p q : Path} {a : α}

@[simp] theorem preorder_nil : preorder children n [] = [] := by
  cases n <;> rfl

@[simp] theorem within_nil : Within children P n [] := by
  cases n with
  | zero => rfl
  | succ n => exact List.forall_mem_nil _

theorem preorder_succ (n : ℕ) (roots : List α) :
    preorder children (n + 1) roots =
      roots.flatMap fun a => a :: preorder children n (children a) :=
  rfl

theorem listing_snd (n : ℕ) (p : Path) (roots : List α) :
    (listing children n p roots).map Prod.snd = preorder children n roots := by
  induction n generalizing p roots with
  | zero => rfl
  | succ n ih =>
      have hnodes : (numbered p roots).map Prod.snd = roots := by
        rw [numbered, List.map_map]
        exact List.zipIdx_map_fst 0 roots
      calc (listing children (n + 1) p roots).map Prod.snd
          = (numbered p roots).flatMap fun entry =>
              entry.2 :: preorder children n (children entry.2) := by
            rw [listing, List.map_flatMap]
            exact List.flatMap_congr fun entry _ => by rw [List.map_cons, ih]
        _ = ((numbered p roots).map Prod.snd).flatMap fun a =>
              a :: preorder children n (children a) := by rw [List.flatMap_map]
        _ = preorder children (n + 1) roots := by rw [hnodes]; rfl

theorem mem_listing :
    (q, a) ∈ listing children n p roots ↔
      ∃ r, q = p ++ r ∧ nodeAt children roots r = some a ∧ r.length ≤ n := by
  induction n generalizing p roots with
  | zero =>
      constructor
      · intro h
        cases h
      · rintro ⟨r, -, hr, hlength⟩
        rw [List.length_eq_zero_iff.1 (Nat.le_zero.1 hlength)] at hr
        cases hr
  | succ n ih =>
      rw [listing, List.mem_flatMap]
      constructor
      · rintro ⟨⟨q', b⟩, hnumbered, hmem⟩
        obtain ⟨i, rfl, hroot⟩ := mem_numbered.1 hnumbered
        rcases List.mem_cons.1 hmem with hself | hbelow
        · cases hself
          exact ⟨[i], rfl, hroot, by simp⟩
        · obtain ⟨r, rfl, hr, hlength⟩ := ih.1 hbelow
          cases r with
          | nil => cases hr
          | cons j r =>
              refine ⟨i :: j :: r, by simp, ?_, Nat.succ_le_succ hlength⟩
              exact Option.bind_eq_some_iff.2 ⟨b, hroot, hr⟩
      · rintro ⟨r, rfl, hr, hlength⟩
        cases r with
        | nil => cases hr
        | cons i r =>
            cases r with
            | nil => exact ⟨(p ++ [i], a), mem_numbered.2 ⟨i, rfl, hr⟩, List.mem_cons_self⟩
            | cons j r =>
                obtain ⟨b, hroot, hbelow⟩ := Option.bind_eq_some_iff.1 hr
                refine ⟨(p ++ [i], b), mem_numbered.2 ⟨i, rfl, hroot⟩, List.mem_cons_of_mem _ ?_⟩
                exact ih.2 ⟨j :: r, by simp, hbelow, Nat.le_of_succ_le_succ hlength⟩

/-- No address is listed twice. -/
theorem pairwise_listing (n : ℕ) (p : Path) (roots : List α) :
    (listing children n p roots).Pairwise fun e f => e.1 ≠ f.1 := by
  induction n generalizing p roots with
  | zero => exact List.Pairwise.nil
  | succ n ih =>
      rw [listing, List.pairwise_flatMap]
      constructor
      · intro entry _
        refine List.pairwise_cons.2 ⟨?_, ih _ _⟩
        rintro ⟨q, b⟩ hbelow heq
        obtain ⟨r, rfl, hr, -⟩ := mem_listing.1 hbelow
        obtain rfl : r = [] := by simpa using heq.symm
        cases hr
      · rw [numbered, List.pairwise_map]
        refine (List.pairwise_iff_getElem.2 fun i j hi hj hij => ?_)
        rintro ⟨q, b⟩ hq ⟨q', b'⟩ hq' (rfl : q = q')
        have haddress : ∀ {k : ℕ} {c : α} {b : α},
            (q, b) ∈ (p ++ [k], c) :: listing children n (p ++ [k]) (children c) →
              ∃ r, q = p ++ [k] ++ r := by
          intro k c b hmem
          rcases List.mem_cons.1 hmem with hself | hbelow
          · cases hself
            exact ⟨[], (List.append_nil _).symm⟩
          · obtain ⟨r, hr, -⟩ := mem_listing.1 hbelow
            exact ⟨r, hr⟩
        obtain ⟨r, hr⟩ := haddress hq
        obtain ⟨r', hr'⟩ := haddress hq'
        rw [hr] at hr'
        simp only [List.append_assoc, List.append_cancel_left_eq, List.cons_append,
          List.nil_append, List.cons.injEq, List.getElem_zipIdx] at hr'
        omega

theorem mem_preorder :
    a ∈ preorder children n roots ↔ ∃ p, nodeAt children roots p = some a ∧ p.length ≤ n := by
  rw [← listing_snd n [], List.mem_map]
  constructor
  · rintro ⟨⟨q, b⟩, hmem, rfl⟩
    obtain ⟨r, -, hr, hlength⟩ := mem_listing.1 hmem
    exact ⟨r, hr, hlength⟩
  · rintro ⟨p, hp, hlength⟩
    exact ⟨([] ++ p, a), mem_listing.2 ⟨p, rfl, hp, hlength⟩, rfl⟩

end Listing

section Bounded

variable {children} {roots : List α} {P : α → Prop} {n : ℕ}

/-- Every node meets `P`, and no address is longer than `n`. -/
theorem within_iff :
    Within children P n roots ↔
      ∀ p a, nodeAt children roots p = some a → P a ∧ p.length ≤ n := by
  constructor
  · intro h p
    induction p generalizing n roots with
    | nil =>
        intro a hnode
        cases hnode
    | cons i p ih =>
        intro a hnode
        cases n with
        | zero =>
            cases h
            cases p <;> cases hnode
        | succ n =>
            cases p with
            | nil => exact ⟨(h a (List.mem_of_getElem? hnode)).1, by simp⟩
            | cons j p =>
                obtain ⟨b, hroot, hbelow⟩ := Option.bind_eq_some_iff.1 hnode
                obtain ⟨ha, hlength⟩ := ih (h b (List.mem_of_getElem? hroot)).2 a hbelow
                exact ⟨ha, Nat.succ_le_succ hlength⟩
  · intro h
    induction n generalizing roots with
    | zero =>
        cases roots with
        | nil => rfl
        | cons a roots => exact absurd (h [0] a rfl).2 (by simp)
    | succ n ih =>
        intro a ha
        obtain ⟨i, hi⟩ := List.mem_iff_getElem?.1 ha
        refine ⟨(h [i] a hi).1, ih fun p b hnode => ?_⟩
        cases p with
        | nil => cases hnode
        | cons j p =>
            obtain ⟨hb, hlength⟩ := h (i :: j :: p) b (Option.bind_eq_some_iff.2 ⟨a, hi, hnode⟩)
            exact ⟨hb, Nat.le_of_succ_le_succ hlength⟩

/-- A forest of bounded depth has as many addresses as its preorder has nodes. -/
theorem ncard_addresses (h : Within children P n roots) :
    (addresses children roots).ncard = (preorder children n roots).length := by
  have hnodup : ((listing children n [] roots).map Prod.fst).Nodup :=
    List.pairwise_map.2 (pairwise_listing n [] roots)
  have hset : addresses children roots = {p | p ∈ (listing children n [] roots).map Prod.fst} := by
    ext p
    simp only [addresses, Set.mem_ofPred_eq, List.mem_map]
    constructor
    · intro hp
      obtain ⟨a, ha⟩ := Option.isSome_iff_exists.1 hp
      exact ⟨(p, a), mem_listing.2 ⟨p, rfl, ha, (within_iff.1 h p a ha).2⟩, rfl⟩
    · rintro ⟨⟨q, a⟩, hmem, rfl⟩
      obtain ⟨r, rfl, hr, -⟩ := mem_listing.1 hmem
      exact Option.isSome_iff_exists.2 ⟨a, hr⟩
  have hfinset : {p | p ∈ (listing children n [] roots).map Prod.fst} =
      (((listing children n [] roots).map Prod.fst).toFinset : Set Path) := by
    ext p
    simp
  rw [hset, hfinset, Set.ncard_coe_finset, List.toFinset_card_of_nodup hnodup, List.length_map,
    ← listing_snd n [] roots, List.length_map]

/-- Where a measure goes down from a node to its children, it bounds the depth. -/
theorem within_of_measure {μ : α → ℕ} (hμ : ∀ a, ∀ b ∈ children a, μ b < μ a)
    (hroots : ∀ a ∈ roots, μ a < n) : Within children (fun _ => True) n roots := by
  induction n generalizing roots with
  | zero => exact List.eq_nil_iff_forall_not_mem.2 fun a ha => Nat.not_lt_zero _ (hroots a ha)
  | succ n ih =>
      intro a ha
      refine ⟨trivial, ih fun b hb => ?_⟩
      exact (hμ a b hb).trans_le (Nat.le_of_lt_succ (hroots a ha))

theorem Within.mono {m : ℕ} (h : Within children P n roots) (hnm : n ≤ m) :
    Within children P m roots :=
  within_iff.2 fun p a hnode =>
    ⟨(within_iff.1 h p a hnode).1, (within_iff.1 h p a hnode).2.trans hnm⟩

theorem Within.of_mem {a : α} (h : Within children P n roots) (ha : a ∈ roots) :
    Within children P n [a] := by
  cases n with
  | zero =>
      rw [show roots = [] from h] at ha
      cases ha
  | succ n => exact List.forall_mem_singleton.2 (h a ha)

/-- The tree of a node is bounded as the forest is. -/
theorem Within.of_nodeAt {p : Path} {a : α} (h : Within children P n roots)
    (hnode : nodeAt children roots p = some a) : Within children P n [a] := by
  induction p generalizing n roots with
  | nil => cases hnode
  | cons i p ih =>
      cases p with
      | nil => exact h.of_mem (List.mem_of_getElem? hnode)
      | cons j p =>
          obtain ⟨b, hroot, hbelow⟩ := Option.bind_eq_some_iff.1 hnode
          cases n with
          | zero =>
              rw [show roots = [] from h] at hroot
              cases hroot
          | succ n =>
              exact (ih (h b (List.mem_of_getElem? hroot)).2 hbelow).mono n.le_succ

/-- An address that goes on is an address in the tree of the node before. -/
theorem nodeAt_append {p : Path} (hp : p ≠ []) (q : Path) :
    nodeAt children roots (p ++ q) =
      (nodeAt children roots p).bind fun a => nodeAt children [a] (0 :: q) := by
  induction p generalizing roots with
  | nil => exact absurd rfl hp
  | cons i p ih =>
      cases p with
      | nil =>
          cases q with
          | nil => exact (Option.bind_fun_some _).symm
          | cons j q => rfl
      | cons j p =>
          have hbelow : ∀ {nodes : List α}, nodeAt children nodes (j :: (p ++ q)) =
              (nodeAt children nodes (j :: p)).bind fun a => nodeAt children [a] (0 :: q) :=
            ih (List.cons_ne_nil j p)
          simp only [List.cons_append, nodeAt, hbelow, Option.bind_assoc]

/-- What is listed in the tree of a node has an address that goes on from the node's. -/
theorem exists_nodeAt_append {p : Path} {a b : α} (hp : nodeAt children roots p = some a)
    (hb : b ∈ preorder children n [a]) : ∃ q, nodeAt children roots (p ++ q) = some b := by
  obtain ⟨q, hq, -⟩ := mem_preorder.1 hb
  have hne : p ≠ [] := by
    rintro rfl
    cases hp
  obtain ⟨q', rfl⟩ : ∃ q', q = 0 :: q' := by
    cases q with
    | nil => cases hq
    | cons i q =>
        cases i with
        | zero => exact ⟨q, rfl⟩
        | succ i => cases q <;> cases hq
  refine ⟨q', ?_⟩
  rw [nodeAt_append hne, hp]
  exact hq

/-- What is listed in the tree of a listed node is listed. -/
theorem mem_preorder_trans {a b : α} (h : Within children P n roots)
    (ha : a ∈ preorder children n roots) (hb : b ∈ preorder children n [a]) :
    b ∈ preorder children n roots := by
  obtain ⟨p, hp, -⟩ := mem_preorder.1 ha
  obtain ⟨q, hq⟩ := exists_nodeAt_append hp hb
  exact mem_preorder.2 ⟨_, hq, (within_iff.1 h _ b hq).2⟩

/-- Deeper levels of a bounded forest are empty. -/
theorem preorder_of_within {m : ℕ} (h : Within children P n roots) (hnm : n ≤ m) :
    preorder children m roots = preorder children n roots := by
  induction n generalizing m roots with
  | zero =>
      rw [show roots = [] from h, preorder_nil, preorder_nil]
  | succ n ih =>
      cases m with
      | zero => cases hnm
      | succ m =>
          rw [preorder_succ, preorder_succ]
          exact List.flatMap_congr fun a ha => by rw [ih (h a ha).2 (Nat.le_of_succ_le_succ hnm)]

/-- The trees of a forest are listed one after the other. -/
theorem preorder_eq_flatMap (n : ℕ) (roots : List α) :
    preorder children n roots = roots.flatMap fun a => preorder children n [a] := by
  cases n with
  | zero => exact (List.flatMap_eq_nil_iff.2 fun _ _ => rfl).symm
  | succ n => exact List.flatMap_congr fun a _ => by rw [preorder_succ, List.flatMap_singleton]

end Bounded

section Relation

variable {β : Type*} {children} {children' : β → List β} {R : α → β → Prop}

/-- Related forests are listed in relation. -/
theorem rel_preorder (hchildren : ∀ a b, R a b → List.Forall₂ R (children a) (children' b))
    (n : ℕ) {roots : List α} {roots' : List β} (h : List.Forall₂ R roots roots') :
    List.Forall₂ R (preorder children n roots) (preorder children' n roots') := by
  induction n generalizing roots roots' with
  | zero => exact List.Forall₂.nil
  | succ n ih =>
      induction h with
      | nil => exact List.Forall₂.nil
      | cons hab _ ihroots =>
          exact List.Forall₂.cons hab (List.rel_append (ih (hchildren _ _ hab)) ihroots)

end Relation

end Forest
