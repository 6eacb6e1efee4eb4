import Mathlib.Data.List.Basic

/-!
# Writes to cells

Writes are applied to a state one after the other. Each goes to at most one cell, which it
leaves occupied or free, and it clobbers if it finds that cell occupied. A sequence of writes
clobbers nothing if and only if its cells are free in the first state and no write occupies
a cell that is written again.
-/

namespace Effect

/-- What writes do to the cells of a state. -/
structure Cells (σ ω κ : Type*) where
  apply : σ → ω → σ
  cell : σ → ω → Option κ
  occupied : σ → κ → Prop
  occupies : ω → Prop
  /-- Where a write goes does not depend on the writes before it. -/
  cell_apply : ∀ s w w', cell (apply s w) w' = cell s w'
  occupied_apply : ∀ s w k, occupied (apply s w) k ↔
    (cell s w = some k ∧ occupies w) ∨ (cell s w ≠ some k ∧ occupied s k)

namespace Cells

variable {σ ω κ : Type*} (cells : Cells σ ω κ)

def Clobbers (s : σ) (w : ω) : Prop := ∃ k, cells.cell s w = some k ∧ cells.occupied s k

/-- None of the writes clobbers, each in the state that it meets. -/
def Spares : σ → List ω → Prop
  | _, [] => True
  | s, w :: ws => ¬cells.Clobbers s w ∧ Spares (cells.apply s w) ws

/-- After a first write that does not clobber, a write clobbers if it would have done so at
once or if the first occupies its cell. -/
theorem clobbers_apply_iff {s : σ} {w : ω} (h : ¬cells.Clobbers s w) (w' : ω) :
    cells.Clobbers (cells.apply s w) w' ↔ cells.Clobbers s w' ∨
      ∃ k, cells.cell s w = some k ∧ cells.cell s w' = some k ∧ cells.occupies w := by
  unfold Clobbers
  constructor
  · rintro ⟨k, hcell, hoccupied⟩
    rw [cells.cell_apply] at hcell
    rcases (cells.occupied_apply s w k).1 hoccupied with ⟨hsame, hoccupies⟩ | ⟨-, hoccupied⟩
    · exact .inr ⟨k, hsame, hcell, hoccupies⟩
    · exact .inl ⟨k, hcell, hoccupied⟩
  · rintro (⟨k, hcell, hoccupied⟩ | ⟨k, hsame, hcell, hoccupies⟩)
    · refine ⟨k, (cells.cell_apply s w w').trans hcell, (cells.occupied_apply s w k).2 ?_⟩
      exact .inr ⟨fun hsame => h ⟨k, hsame, hoccupied⟩, hoccupied⟩
    · refine ⟨k, (cells.cell_apply s w w').trans hcell, (cells.occupied_apply s w k).2 ?_⟩
      exact .inl ⟨hsame, hoccupies⟩

/-- When a sequence of writes clobbers nothing. -/
theorem spares_iff (s : σ) (ws : List ω) :
    cells.Spares s ws ↔ (∀ w ∈ ws, ¬cells.Clobbers s w) ∧
      ws.Pairwise fun w w' => ∀ k, cells.cell s w = some k → cells.cell s w' = some k →
        ¬cells.occupies w := by
  induction ws generalizing s with
  | nil => simp [Spares]
  | cons w ws ih =>
      rw [Spares, ih, List.forall_mem_cons, List.pairwise_cons, and_assoc]
      refine and_congr_right fun hfirst => ?_
      have hlater : (∀ w' ∈ ws, ¬cells.Clobbers (cells.apply s w) w') ↔
          (∀ w' ∈ ws, ¬cells.Clobbers s w') ∧ ∀ w' ∈ ws, ∀ k, cells.cell s w = some k →
            cells.cell s w' = some k → ¬cells.occupies w := by
        rw [← forall₂_and]
        refine forall₂_congr fun w' _ => ?_
        rw [cells.clobbers_apply_iff hfirst]
        simp only [not_or, not_exists, not_and]
      rw [hlater, and_assoc]
      simp only [cells.cell_apply]

end Cells

end Effect
