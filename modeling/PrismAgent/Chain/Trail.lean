import PrismAgent.Chain.Entries
import PrismAgent.Planning.Keys
import PrismAgent.Sequential.Order

/-!
# Trails of tool calls

A plan that runs in order calls the tool of one action after the other, up to three
times each. `Trail pos n k xs` says so of the calls `xs`: the action at position `n`
is tried for the time being and has failed `k` times, the ones before it succeeded.
-/

namespace PrismAgent

section Trail

/-- The calls so far, when the action at position `n` has failed `k` times. -/
structure Trail (pos : Execution → ℕ) (n k : ℕ) (xs : List Execution) : Prop where
  within : ∀ x ∈ xs, pos x ≤ n
  attempts : ∀ i < n, (xs.countP fun x => pos x = i) ≤ ActionEventHandler.ACTION_EXECUTION_ATTEMPTS
  failures : (xs.countP fun x => pos x = n) = k
  unsuccessful : ∀ x ∈ xs, pos x = n → x.outcome ≠ .success
  successes : ∀ i < n, ∃ x ∈ xs, pos x = i ∧ x.outcome = .success
  ordered : xs.Pairwise fun x y => pos x ≤ pos y

namespace Trail

variable {pos : Execution → ℕ} {n k : ℕ} {xs : List Execution} {x : Execution}

theorem nil (pos : Execution → ℕ) : Trail pos 0 0 [] := by
  constructor <;> simp

theorem ordered_append (h : Trail pos n k xs) (hx : pos x = n) :
    (xs ++ [x]).Pairwise fun x y => pos x ≤ pos y := by
  rw [List.pairwise_append]
  refine ⟨h.ordered, List.pairwise_singleton _ _, ?_⟩
  intro y hy z hz
  rw [List.mem_singleton.1 hz, hx]
  exact h.within y hy

theorem countP_append (h : Trail pos n k xs) (hx : pos x = n) {i : ℕ} (hi : i < n) :
    ((xs ++ [x]).countP fun x => pos x = i) ≤ ActionEventHandler.ACTION_EXECUTION_ATTEMPTS := by
  have hne : pos x ≠ i := by omega
  rw [List.countP_append, List.countP_singleton]
  simpa [hne] using h.attempts i hi

/-- One more failure of the action at hand. -/
theorem fail (h : Trail pos n k xs) (hx : pos x = n) (houtcome : x.outcome ≠ .success) :
    Trail pos n (k + 1) (xs ++ [x]) where
  within y hy := by
    rcases List.mem_append.1 hy with hy | hy
    · exact h.within y hy
    · rw [List.mem_singleton.1 hy, hx]
  attempts i hi := h.countP_append hx hi
  failures := by
    rw [List.countP_append, List.countP_singleton, h.failures]
    simp [hx]
  unsuccessful y hy hyn := by
    rcases List.mem_append.1 hy with hy | hy
    · exact h.unsuccessful y hy hyn
    · rwa [List.mem_singleton.1 hy]
  successes i hi := by
    obtain ⟨y, hy, hyi⟩ := h.successes i hi
    exact ⟨y, List.mem_append_left _ hy, hyi⟩
  ordered := h.ordered_append hx

/-- The action at hand succeeds and the next one is tried. -/
theorem succeed (h : Trail pos n k xs) (hx : pos x = n) (houtcome : x.outcome = .success)
    (hk : k < ActionEventHandler.ACTION_EXECUTION_ATTEMPTS) :
    Trail pos (n + 1) 0 (xs ++ [x]) where
  within y hy := by
    rcases List.mem_append.1 hy with hy | hy
    · exact Nat.le_succ_of_le (h.within y hy)
    · rw [List.mem_singleton.1 hy, hx]
      exact Nat.le_succ n
  attempts i hi := by
    rcases Nat.lt_succ_iff_lt_or_eq.1 hi with hlt | rfl
    · exact h.countP_append hx hlt
    · rw [List.countP_append, List.countP_singleton, h.failures]
      simpa [hx] using Nat.succ_le_of_lt hk
  failures := by
    rw [List.countP_eq_zero]
    intro y hy
    have hle : pos y ≤ n := by
      rcases List.mem_append.1 hy with hy | hy
      · exact h.within y hy
      · rw [List.mem_singleton.1 hy, hx]
    simpa using Nat.ne_of_lt (Nat.lt_succ_of_le hle)
  unsuccessful y hy hyn := by
    exfalso
    rcases List.mem_append.1 hy with hy | hy
    · have := h.within y hy
      omega
    · rw [List.mem_singleton.1 hy] at hyn
      omega
  successes i hi := by
    rcases Nat.lt_succ_iff_lt_or_eq.1 hi with hlt | rfl
    · obtain ⟨y, hy, hyi⟩ := h.successes i hlt
      exact ⟨y, List.mem_append_left _ hy, hyi⟩
    · exact ⟨x, by simp, hx, houtcome⟩
  ordered := h.ordered_append hx

end Trail

end Trail

end PrismAgent
