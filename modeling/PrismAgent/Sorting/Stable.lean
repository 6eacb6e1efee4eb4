import Mathlib.Data.List.Basic

/-!
# The first element of a stable sort

A stable sort puts in front the element that is before all others in the order, of several
such elements the one that the list holds first.
-/

namespace Stable

variable {α : Type*} {le : α → α → Bool}

/-- `x` stands in the list; it is strictly before everything in front of it and not behind
anything after it. -/
def IsFirst (le : α → α → Bool) (x : α) (l : List α) : Prop :=
  ∃ before after, l = before ++ x :: after ∧ (∀ y ∈ before, le y x = false) ∧
    ∀ y ∈ after, le x y = true

theorem IsFirst.mem {x : α} {l : List α} (h : IsFirst le x l) : x ∈ l := by
  obtain ⟨before, after, rfl, -, -⟩ := h
  exact List.mem_append_right before List.mem_cons_self

theorem isFirst_cons_iff {x a : α} {l : List α} : IsFirst le x (a :: l) ↔
    (x = a ∧ ∀ y ∈ l, le a y = true) ∨ (le a x = false ∧ IsFirst le x l) := by
  constructor
  · rintro ⟨before, after, hl, hbefore, hafter⟩
    cases before with
    | nil =>
        obtain ⟨rfl, rfl⟩ := List.cons.inj hl
        exact .inl ⟨rfl, hafter⟩
    | cons b before =>
        obtain ⟨rfl, rfl⟩ := List.cons.inj hl
        exact .inr ⟨hbefore a List.mem_cons_self, before, after, rfl,
          fun y hy => hbefore y (List.mem_cons_of_mem a hy), hafter⟩
  · rintro (⟨rfl, hafter⟩ | ⟨hax, before, after, rfl, hbefore, hafter⟩)
    · exact ⟨[], l, rfl, by simp, hafter⟩
    · refine ⟨a :: before, after, rfl, fun y hy => ?_, hafter⟩
      rcases List.mem_cons.1 hy with rfl | hy
      · exact hax
      · exact hbefore y hy

variable (trans : ∀ a b c, le a b → le b c → le a c) (total : ∀ a b, le a b || le b a)

include trans total

theorem head?_mergeSort_eq_some_iff {l : List α} {x : α} :
    (l.mergeSort le).head? = some x ↔ IsFirst le x l := by
  induction l with
  | nil =>
      refine iff_of_false (by simp) fun h => ?_
      cases h.mem
  | cons a l ih =>
      obtain ⟨front, back, hsorted, hl, hfront⟩ := List.mergeSort_cons trans total a l
      rw [isFirst_cons_iff, ← ih, hsorted, hl]
      cases front with
      | nil =>
          have hperm : ∀ y ∈ l, y ∈ back := fun y hy => by
            have hmem := (List.mergeSort_perm l le).mem_iff.2 hy
            rwa [hl] at hmem
          have hleast := List.pairwise_mergeSort trans total (a :: l)
          rw [hsorted] at hleast
          have hafter : ∀ y ∈ l, le a y = true := fun y hy =>
            (List.pairwise_cons.1 hleast).1 y (hperm y hy)
          constructor
          · intro h
            exact .inl ⟨(Option.some.inj h).symm, hafter⟩
          · rintro (⟨rfl, -⟩ | ⟨hax, hhead⟩)
            · rfl
            · have hx : x ∈ l := by
                rw [← (List.mergeSort_perm l le).mem_iff, hl]
                exact List.mem_of_head? hhead
              rw [hafter x hx] at hax
              cases hax
      | cons b front =>
          have hab : le a b = false := by simpa using hfront b List.mem_cons_self
          have hb : b ∈ l := by
            rw [← (List.mergeSort_perm l le).mem_iff, hl]
            exact List.mem_cons_self
          constructor
          · intro h
            obtain rfl := Option.some.inj h
            exact .inr ⟨hab, rfl⟩
          · rintro (⟨-, hafter⟩ | ⟨-, hhead⟩)
            · rw [hafter b hb] at hab
              cases hab
            · exact hhead

end Stable
