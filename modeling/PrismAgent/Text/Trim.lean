import Mathlib.Data.List.DropRight

/-!
# Trimming a list at both ends

The entries that a predicate names are dropped at the front and at the back. What is left
begins and ends with other entries, so trimming again changes nothing.
-/

namespace Trim

variable {α : Type*} (p : α → Bool)

/-- The list without the entries of `p` at its front and at its back. -/
def trim (l : List α) : List α := (l.dropWhile p).rdropWhile p

variable {p} {l : List α}

theorem length_trim_le (l : List α) : (trim p l).length ≤ (l.dropWhile p).length :=
  List.IsPrefix.length_le <| List.rdropWhile_prefix p _

/-- A list stays as it is where its ends are not in `p`. -/
theorem trim_eq_self_iff :
    trim p l = l ↔
      (∀ h : l ≠ [], p (l.head h) = false) ∧ ∀ h : l ≠ [], p (l.getLast h) = false := by
  constructor
  · intro h
    have hfront : l.dropWhile p = l := by
      refine (List.dropWhile_suffix p).eq_of_length_le ?_
      calc l.length = (trim p l).length := by rw [h]
        _ ≤ (l.dropWhile p).length := length_trim_le l
    have hback : l.rdropWhile p = l := by
      rw [trim, hfront] at h
      exact h
    refine ⟨fun hne => ?_, fun hne => by simpa using List.rdropWhile_eq_self_iff.1 hback hne⟩
    cases l with
    | nil => exact absurd rfl hne
    | cons a l => simpa using List.dropWhile_eq_self_iff.1 hfront (Nat.succ_pos _)
  · rintro ⟨hfront, hback⟩
    have hdrop : l.dropWhile p = l := by
      refine List.dropWhile_eq_self_iff.2 fun hlength => ?_
      cases l with
      | nil => cases hlength
      | cons a l => simpa using hfront (List.cons_ne_nil a l)
    rw [trim, hdrop]
    exact List.rdropWhile_eq_self_iff.2 fun hne => by simpa using hback hne

/-- Trimming leaves no entry of `p` at the ends. -/
theorem trim_trim : trim p (trim p l) = trim p l := by
  refine trim_eq_self_iff.2 ⟨fun hne => ?_, fun hne => ?_⟩
  · have hbegins : trim p l <+: l.dropWhile p := List.rdropWhile_prefix p _
    have hdrop : l.dropWhile p ≠ [] := fun hnil => hne (List.prefix_nil.1 (hnil ▸ hbegins))
    rw [hbegins.head hne]
    simpa using List.head_dropWhile_not p hdrop
  · exact Bool.not_eq_true _ ▸ List.rdropWhile_last_not p (l.dropWhile p) hne

theorem rdropWhile_append (front rest : List α) :
    (front ++ rest).rdropWhile p =
      if rest.rdropWhile p = [] then front.rdropWhile p else front ++ rest.rdropWhile p := by
  have hempty : (rest.reverse.dropWhile p).isEmpty = true ↔ rest.rdropWhile p = [] := by
    rw [List.isEmpty_iff, List.rdropWhile, List.reverse_eq_nil_iff]
  by_cases hrest : rest.rdropWhile p = []
  · rw [if_pos hrest, List.rdropWhile, List.reverse_append, List.dropWhile_append,
      if_pos (hempty.2 hrest)]
    rfl
  · rw [if_neg hrest, List.rdropWhile, List.reverse_append, List.dropWhile_append,
      if_neg (hempty.not.2 hrest), List.reverse_append, List.reverse_reverse]
    rfl

/-- What stands between two entries that stay is not trimmed. -/
theorem exists_trim_append {front rest : List α} (hne : front ≠ [])
    (hhead : p (front.head hne) = false) (hlast : p (front.getLast hne) = false) :
    ∃ rest', trim p (front ++ rest) = front ++ rest' := by
  have hdrop : (front ++ rest).dropWhile p = front ++ rest := by
    refine List.dropWhile_eq_self_iff.2 fun hlength => ?_
    cases front with
    | nil => exact absurd rfl hne
    | cons a front => simpa using hhead
  rw [trim, hdrop, rdropWhile_append]
  split
  · refine ⟨[], ?_⟩
    rw [List.append_nil]
    exact List.rdropWhile_eq_self_iff.2 fun _ => by simpa using hlast
  · exact ⟨_, rfl⟩

/-- What begins with an entry that stays, is not trimmed away. -/
theorem trim_take_head {n : ℕ} (h : trim p l = l) :
    ∀ hne : l.take n ≠ [], p ((l.take n).head hne) = false := by
  intro hne
  have hl : l ≠ [] := by
    rintro rfl
    exact hne List.take_nil
  have hbegins : l.take n <+: l := List.take_prefix n l
  rw [hbegins.head hne]
  exact (trim_eq_self_iff.1 h).1 hl

end Trim
