import PrismAgent.Text.Trim

/-!
# Words

The words of a list are what stands between the separators. Replacing every run of separators
by a single one and trimming the list joins its words by that separator.
-/

namespace Words

variable {α : Type*} (p : α → Bool) (sep : α)

/-- The words that follow, the first of them having begun with `word`. -/
def wordsFrom : List α → List α → List (List α)
  | word, [] => if word = [] then [] else [word]
  | word, a :: l =>
      if p a then
        if word = [] then wordsFrom [] l else word :: wordsFrom [] l
      else wordsFrom (word ++ [a]) l

def words (l : List α) : List (List α) := wordsFrom p [] l

/-- One separator in the place of every run of them. -/
def collapse (l : List α) : List α :=
  l.foldr (fun a l => if p a then sep :: l.dropWhile p else a :: l) []

variable {p sep} {word l : List α}

theorem ne_nil_of_mem_wordsFrom : ∀ w ∈ wordsFrom p word l, w ≠ [] := by
  induction l generalizing word with
  | nil =>
      unfold wordsFrom
      split
      · exact List.forall_mem_nil _
      next hword => exact List.forall_mem_singleton.2 hword
  | cons a l ih =>
      unfold wordsFrom
      split
      · split
        · exact ih
        next hword => exact List.forall_mem_cons.2 ⟨hword, ih⟩
      · exact ih

theorem intercalate_eq_nil_iff {ws : List (List α)} (h : ∀ w ∈ ws, w ≠ []) :
    [sep].intercalate ws = [] ↔ ws = [] := by
  refine ⟨fun hnil => ?_, fun hws => by rw [hws, List.intercalate_nil]⟩
  cases ws with
  | nil => rfl
  | cons w ws =>
      have hw := h w List.mem_cons_self
      by_cases hws : ws = []
      · rw [hws, List.intercalate_singleton] at hnil
        exact absurd hnil hw
      · rw [List.intercalate_cons_of_ne_nil hws] at hnil
        exact absurd (List.append_eq_nil_iff.1 (List.append_eq_nil_iff.1 hnil).1).1 hw

/-- Collapsing and trimming joins the words, also behind a word that has begun. -/
theorem trim_collapse_and (hsep : p sep = true) (l : List α) :
    Trim.trim p (collapse p sep l) = [sep].intercalate (words p l) ∧
      ∀ word (hne : word ≠ []), p (word.getLast hne) = false →
        (word ++ collapse p sep l).rdropWhile p = [sep].intercalate (wordsFrom p word l) := by
  induction l with
  | nil =>
      refine ⟨rfl, fun word hne hlast => ?_⟩
      rw [wordsFrom, if_neg hne, List.intercalate_singleton, collapse, List.foldr_nil,
        List.append_nil]
      exact List.rdropWhile_eq_self_iff.2 fun _ => by simpa using hlast
  | cons a l ih =>
      obtain ⟨ihtrim, ihword⟩ := ih
      cases ha : p a with
      | true =>
          have hcollapse : collapse p sep (a :: l) = sep :: (collapse p sep l).dropWhile p := by
            rw [collapse, List.foldr_cons, if_pos ha]
            rfl
          rw [hcollapse]
          refine ⟨?_, fun word hne hlast => ?_⟩
          · rw [words, wordsFrom, if_pos ha, if_pos rfl, Trim.trim, List.dropWhile_cons_of_pos hsep,
              List.dropWhile_idempotent]
            exact ihtrim
          · have hword : word.rdropWhile p = word :=
              List.rdropWhile_eq_self_iff.2 fun _ => by simpa using hlast
            have hrest : (sep :: (collapse p sep l).dropWhile p).rdropWhile p =
                if words p l = [] then [] else sep :: [sep].intercalate (words p l) := by
              rw [← List.singleton_append, Trim.rdropWhile_append, ← Trim.trim, ihtrim]
              refine if_congr (intercalate_eq_nil_iff ne_nil_of_mem_wordsFrom) ?_ rfl
              exact List.rdropWhile_eq_nil_iff.2 (List.forall_mem_singleton.2 hsep)
            rw [wordsFrom, if_pos ha, if_neg hne, Trim.rdropWhile_append, hrest, hword]
            by_cases hwords : words p l = []
            · rw [if_pos hwords, if_pos rfl, ← words, hwords, List.intercalate_singleton]
            · rw [if_neg hwords, if_neg (List.cons_ne_nil _ _), ← words,
                List.intercalate_cons_of_ne_nil hwords]
              exact (List.append_assoc word [sep] _).symm
      | false =>
          have hcollapse : collapse p sep (a :: l) = a :: collapse p sep l := by
            rw [collapse, List.foldr_cons, if_neg (by simp [ha])]
            rfl
          have hneg : ¬p a = true := by simp [ha]
          rw [hcollapse]
          refine ⟨?_, fun word hne hlast => ?_⟩
          · rw [words, wordsFrom, if_neg hneg, Trim.trim, List.dropWhile_cons_of_neg hneg]
            exact ihword [a] (List.cons_ne_nil a []) ha
          · rw [wordsFrom, if_neg hneg, ← List.singleton_append, ← List.append_assoc]
            exact ihword (word ++ [a]) (by simp) (by simpa using ha)

/-- Collapsing and trimming joins the words by single separators. -/
theorem trim_collapse (hsep : p sep = true) (l : List α) :
    Trim.trim p (collapse p sep l) = [sep].intercalate (words p l) :=
  (trim_collapse_and hsep l).1

end Words
