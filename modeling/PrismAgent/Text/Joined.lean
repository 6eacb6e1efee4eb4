import Mathlib.Data.List.Basic

/-!
# Texts joined by a separator

Two joined texts are equal if their parts are, or if one part ends at a separator inside
the other text's part. A last part that holds no separator is determined, and so is what
stands before it.
-/

namespace Joined

variable {α : Type*} {sep : α} {a a' b b' : List α}

/-- Where two joined texts are split differently, one split is at a separator inside a part
of the other. -/
theorem append_cons_eq_iff : a ++ sep :: b = a' ++ sep :: b' ↔
    (a = a' ∧ b = b') ∨ (∃ s, a' = a ++ sep :: s ∧ b = s ++ sep :: b') ∨
      ∃ s, a = a' ++ sep :: s ∧ b' = s ++ sep :: b := by
  constructor
  · intro h
    rcases List.append_eq_append_iff.1 h with ⟨t, rfl, ht⟩ | ⟨t, rfl, ht⟩
    · cases t with
      | nil => exact .inl ⟨by simp, (List.cons.inj ht).2⟩
      | cons x s =>
          obtain ⟨rfl, rfl⟩ := List.cons.inj ht
          exact .inr (.inl ⟨s, rfl, rfl⟩)
    · cases t with
      | nil => exact .inl ⟨by simp, (List.cons.inj ht).2.symm⟩
      | cons x s =>
          obtain ⟨rfl, rfl⟩ := List.cons.inj ht
          exact .inr (.inr ⟨s, rfl, rfl⟩)
  · rintro (⟨rfl, rfl⟩ | ⟨s, rfl, rfl⟩ | ⟨s, rfl, rfl⟩)
    · rfl
    · simp
    · simp

/-- A last part without separators is determined. -/
theorem append_cons_inj (hb : sep ∉ b) (hb' : sep ∉ b') (h : a ++ sep :: b = a' ++ sep :: b') :
    a = a' ∧ b = b' := by
  rcases append_cons_eq_iff.1 h with heq | ⟨s, -, rfl⟩ | ⟨s, -, rfl⟩
  · exact heq
  · exact absurd (List.mem_append_right s List.mem_cons_self) hb
  · exact absurd (List.mem_append_right s List.mem_cons_self) hb'

/-- So is a first part without separators. -/
theorem append_cons_inj_left (ha : sep ∉ a) (ha' : sep ∉ a')
    (h : a ++ sep :: b = a' ++ sep :: b') : a = a' ∧ b = b' := by
  rcases append_cons_eq_iff.1 h with heq | ⟨s, rfl, -⟩ | ⟨s, rfl, -⟩
  · exact heq
  · exact absurd (List.mem_append_right a List.mem_cons_self) ha'
  · exact absurd (List.mem_append_right a' List.mem_cons_self) ha

/-- Three parts are determined if those of one text hold no separators. -/
theorem append_cons_cons_inj {c c' : List α} (ha : sep ∉ a) (hb : sep ∉ b) (hc : sep ∉ c)
    (h : a ++ sep :: (b ++ sep :: c) = a' ++ sep :: (b' ++ sep :: c')) :
    a = a' ∧ b = b' ∧ c = c' := by
  classical
  have hcount := congrArg (List.count sep) h
  simp only [List.count_append, List.count_cons_self, List.count_eq_zero_of_not_mem ha,
    List.count_eq_zero_of_not_mem hb, List.count_eq_zero_of_not_mem hc] at hcount
  have ha' : sep ∉ a' := List.count_eq_zero.1 (by omega)
  have hb' : sep ∉ b' := List.count_eq_zero.1 (by omega)
  obtain ⟨hfirst, hrest⟩ := append_cons_inj_left ha ha' h
  exact ⟨hfirst, append_cons_inj_left hb hb' hrest⟩

section Colon

variable {s s' t t' : String}

theorem toList_colon (s t : String) : (s ++ ":" ++ t).toList = s.toList ++ ':' :: t.toList := by
  simp [String.toList_append]

/-- The second pair is split later: its first text goes on past the colon of the first
pair, and the rest of the first pair's last text is its last. -/
def Overlaps (s t s' t' : String) : Prop := ∃ u, s' = s ++ ":" ++ u ∧ t = u ++ ":" ++ t'

theorem overlaps_iff : Overlaps s t s' t' ↔
    ∃ u, s'.toList = s.toList ++ ':' :: u ∧ t.toList = u ++ ':' :: t'.toList := by
  constructor
  · rintro ⟨u, rfl, rfl⟩
    exact ⟨u.toList, toList_colon s u, toList_colon u t'⟩
  · rintro ⟨u, hs, ht⟩
    refine ⟨String.ofList u, String.toList_injective ?_, String.toList_injective ?_⟩
    · rw [toList_colon, String.toList_ofList, hs]
    · rw [toList_colon, String.toList_ofList, ht]

instance : Decidable (Overlaps s t s' t') :=
  let u := s'.toList.drop (s.toList.length + 1)
  decidable_of_iff (s'.toList = s.toList ++ ':' :: u ∧ t.toList = u ++ ':' :: t'.toList) <| by
    rw [overlaps_iff]
    constructor
    · exact fun h => ⟨u, h⟩
    · rintro ⟨u', hs, ht⟩
      have hu : u = u' := by simp [u, hs]
      rw [hu]
      exact ⟨hs, ht⟩

/-- Nothing overlaps a last text without colons. -/
theorem not_overlaps (ht : ':' ∉ t.toList) : ¬ Overlaps s t s' t' := by
  rw [overlaps_iff]
  rintro ⟨u, -, hu⟩
  rw [hu] at ht
  exact ht (List.mem_append_right u List.mem_cons_self)

/-- Nor does a first text without colons overlap anything. -/
theorem not_overlaps_left (hs' : ':' ∉ s'.toList) : ¬ Overlaps s t s' t' := by
  rw [overlaps_iff]
  rintro ⟨u, hu, -⟩
  rw [hu] at hs'
  exact hs' (List.mem_append_right s.toList List.mem_cons_self)

/-- Two texts joined by a colon. -/
theorem colon_eq_iff : s ++ ":" ++ t = s' ++ ":" ++ t' ↔
    (s = s' ∧ t = t') ∨ Overlaps s t s' t' ∨ Overlaps s' t' s t := by
  rw [← String.toList_inj, toList_colon, toList_colon, append_cons_eq_iff, overlaps_iff,
    overlaps_iff, String.toList_inj, String.toList_inj]

/-- A last part without colons is determined. -/
theorem colon_inj (ht : ':' ∉ t.toList) (ht' : ':' ∉ t'.toList)
    (h : s ++ ":" ++ t = s' ++ ":" ++ t') : s = s' ∧ t = t' := by
  have hlist := congrArg String.toList h
  rw [toList_colon, toList_colon] at hlist
  obtain ⟨hs, ht⟩ := append_cons_inj ht ht' hlist
  exact ⟨String.toList_injective hs, String.toList_injective ht⟩

/-- A number is written in digits. -/
theorem isDigit_of_mem_toString {n : ℕ} {c : Char} (hmem : c ∈ (toString n).toList) :
    c.isDigit = true := by
  rw [Nat.toString_eq_ofList_toDigits, String.toList_ofList] at hmem
  exact Nat.isDigit_of_mem_toDigits (by decide) (by decide) hmem

theorem colon_notMem_toString (n : ℕ) : ':' ∉ (toString n).toList := fun hmem =>
  absurd (isDigit_of_mem_toString hmem) (by decide)

theorem toString_inj {m n : ℕ} (h : toString m = toString n) : m = n := by
  have hdigits := congrArg (fun s => Nat.ofDigitChars 10 s.toList 0) h
  simpa [Nat.toString_eq_ofList_toDigits, Nat.ofDigitChars_toDigits] using hdigits

end Colon

end Joined
