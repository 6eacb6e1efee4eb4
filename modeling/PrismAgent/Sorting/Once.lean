import Mathlib.Data.List.Induction
import Mathlib.Data.List.Nodup

/-!
# Entries that join a list once

A loop that appends an entry unless it is there already keeps the first of equal entries, as
`List.eraseDups` does. Adding what has been gone through already changes nothing, so lists
may be freed of repetitions before they are joined or afterwards.
-/

namespace Once

variable {α : Type*} [DecidableEq α]

/-- An entry joins the list where it is not in it. -/
def add (l : List α) (a : α) : List α := if a ∈ l then l else l ++ [a]

/-- All entries of `m` join `l`, in turn. -/
def addAll (l m : List α) : List α := m.foldl add l

variable {l k m : List α} {a : α}

@[simp] theorem addAll_nil : addAll l [] = l := rfl

theorem addAll_cons : addAll l (a :: m) = addAll (add l a) m := rfl

theorem addAll_append : addAll l (k ++ m) = addAll (addAll l k) m := List.foldl_append

theorem mem_add {b : α} : b ∈ add l a ↔ b ∈ l ∨ b = a := by
  unfold add
  split
  next h =>
    constructor
    · exact .inl
    · rintro (hb | rfl)
      · exact hb
      · exact h
  next => simp

theorem mem_addAll : a ∈ addAll l m ↔ a ∈ l ∨ a ∈ m := by
  induction m generalizing l with
  | nil => simp
  | cons b m ih => rw [addAll_cons, ih, mem_add, List.mem_cons, or_assoc]

theorem nodup_add (h : l.Nodup) : (add l a).Nodup := by
  unfold add
  split
  · exact h
  next ha =>
    refine List.nodup_append.2 ⟨h, List.nodup_singleton a, fun b hb c hc => ?_⟩
    rw [List.mem_singleton.1 hc]
    exact ne_of_mem_of_not_mem hb ha

theorem nodup_addAll (h : l.Nodup) : (addAll l m).Nodup := by
  induction m generalizing l with
  | nil => exact h
  | cons b m ih => exact ih (nodup_add h)

/-- Entries that are there already do not join. -/
theorem addAll_of_subset (h : ∀ a ∈ m, a ∈ l) : addAll l m = l := by
  induction m with
  | nil => rfl
  | cons b m ih =>
      obtain ⟨hb, hm⟩ := List.forall_mem_cons.1 h
      rw [addAll_cons, add, if_pos hb]
      exact ih hm

theorem addAll_add : addAll l (add k a) = add (addAll l k) a := by
  unfold add
  by_cases ha : a ∈ k
  · rw [if_pos ha, if_pos (mem_addAll.2 (.inr ha))]
  · rw [if_neg ha, addAll_append]
    rfl

/-- Repetitions may be dropped before the lists are joined. -/
theorem addAll_addAll : addAll l (addAll k m) = addAll (addAll l k) m := by
  induction m generalizing k with
  | nil => rfl
  | cons b m ih => rw [addAll_cons, ih, addAll_add, addAll_cons]

theorem addAll_flatMap {β : Type*} (f : β → List α) (bs : List β) :
    addAll l (bs.flatMap fun b => addAll [] (f b)) = addAll l (bs.flatMap f) := by
  induction bs generalizing l with
  | nil => rfl
  | cons b bs ih =>
      rw [List.flatMap_cons, List.flatMap_cons, addAll_append, addAll_append, addAll_addAll, ih]
      rfl

/-- A list without repetitions joins as it is. -/
theorem addAll_of_nodup (h : (l ++ m).Nodup) : addAll l m = l ++ m := by
  induction m generalizing l with
  | nil => rw [addAll_nil, List.append_nil]
  | cons b m ih =>
      have hb : b ∉ l := fun hmem => (List.nodup_append.1 h).2.2 b hmem b List.mem_cons_self rfl
      have hsplit : l ++ b :: m = l ++ [b] ++ m := by simp
      rw [addAll_cons, add, if_neg hb, ih (by rwa [← hsplit]), hsplit]

theorem addAll_sublist : (addAll l m).Sublist (l ++ m) := by
  induction m generalizing l with
  | nil => rw [addAll_nil, List.append_nil]
  | cons b m ih =>
      have hadd : (add l b).Sublist (l ++ [b]) := by
        unfold add
        split
        · exact List.sublist_append_left l [b]
        · exact List.Sublist.refl _
      have hsplit : l ++ [b] ++ m = l ++ b :: m := List.append_assoc l [b] m
      rw [addAll_cons, ← hsplit]
      exact ih.trans (hadd.append_right m)

/-- Reading the entries of a list leaves it as it is where it leaves every entry as it is. -/
theorem addAll_filterMap_eq_self_iff {f : α → Option α} (h : m.Nodup) :
    addAll [] (m.filterMap f) = m ↔ ∀ a ∈ m, f a = some a := by
  constructor
  · intro heq
    have hsub : (addAll [] (m.filterMap f)).Sublist (m.filterMap f) := addAll_sublist
    have hread : m.filterMap f = m := by
      have hlength : (m.filterMap f).length = m.length := by
        refine Nat.le_antisymm (List.length_filterMap_le f m) ?_
        calc m.length = (addAll [] (m.filterMap f)).length := by rw [heq]
          _ ≤ (m.filterMap f).length := hsub.length_le
      rw [← hsub.eq_of_length (by rw [heq, hlength]), heq]
    clear heq hsub h
    induction m with
    | nil => exact List.forall_mem_nil _
    | cons a m ih =>
        cases ha : f a with
        | none =>
            rw [List.filterMap_cons_none ha] at hread
            have hle := List.length_filterMap_le f m
            rw [hread, List.length_cons] at hle
            omega
        | some b =>
            rw [List.filterMap_cons_some ha] at hread
            obtain ⟨rfl, hrest⟩ := List.cons.inj hread
            exact List.forall_mem_cons.2 ⟨ha, ih hrest⟩
  · intro hread
    have hself : m.filterMap f = m := by
      clear h
      induction m with
      | nil => rfl
      | cons a m ih =>
          obtain ⟨ha, hrest⟩ := List.forall_mem_cons.1 hread
          rw [List.filterMap_cons_some ha, ih hrest]
    rw [hself]
    exact addAll_of_nodup h

theorem addAll_nil_eq_eraseDups : addAll [] m = m.eraseDups := by
  induction m using List.reverseRecOn with
  | nil => rfl
  | append_singleton m a ih =>
      rw [addAll_append, ih, List.eraseDups_append, addAll_cons, addAll_nil, add]
      by_cases ha : a ∈ m
      · rw [if_pos (List.mem_eraseDups.2 ha)]
        simp [List.cons_removeAll, ha]
      · rw [if_neg fun h => ha (List.mem_eraseDups.1 h)]
        simp [List.cons_removeAll, List.eraseDups_cons, ha]

end Once
