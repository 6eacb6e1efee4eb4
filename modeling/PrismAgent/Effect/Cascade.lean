import Mathlib.Logic.Hydra

/-!
# Cascades

A message is taken from any place of a queue, and its handling appends messages that rank
below it, as many as it likes. Such a cascade comes to an end: each step cuts off one head
of a hydra and lets smaller ones grow.
-/

namespace Effect

open Relation

variable {S M : Type*}

/-- A message is spent: it leaves the queue, and messages of smaller rank are appended. -/
def Spends (queue : S → List M) (rank : M → ℕ) (s s' : S) : Prop :=
  ∃ before m after added, queue s = before ++ m :: after ∧
    queue s' = before ++ after ++ added ∧ ∀ m' ∈ added, rank m' < rank m

variable {queue : S → List M} {rank : M → ℕ}

theorem Spends.cutExpand {s s' : S} (h : Spends queue rank s s') :
    CutExpand (InvImage (· < ·) rank) (queue s' : Multiset M) (queue s) := by
  obtain ⟨before, m, after, added, hqueue, hqueue', hadded⟩ := h
  refine ⟨added, m, hadded, ?_⟩
  rw [hqueue, hqueue', ← Multiset.coe_singleton, Multiset.coe_add, Multiset.coe_add,
    Multiset.coe_eq_coe]
  have hhead : (before ++ after ++ added ++ [m]).Perm (m :: (before ++ after ++ added)) :=
    List.perm_append_comm
  refine hhead.trans ?_
  rw [List.append_assoc, List.append_assoc, List.cons_append]
  exact List.perm_middle.symm

/-- Spending messages is well-founded. -/
theorem wellFounded_spends : WellFounded fun s' s => Spends queue rank s s' :=
  Subrelation.wf (fun h => Spends.cutExpand h)
    (InvImage.wf (fun s => (queue s : Multiset M)) (InvImage.wf rank Nat.lt_wfRel.wf).cutExpand)

/-- A run cannot spend messages for ever. -/
theorem exists_not_spends (run : ℕ → S) : ∃ n, ¬Spends queue rank (run n) (run (n + 1)) :=
  haveI : IsWellFounded S fun s' s => Spends queue rank s s' := ⟨wellFounded_spends⟩
  WellFounded.not_rel_apply_succ (r := fun s' s => Spends queue rank s s') run

end Effect
