import Mathlib.Tactic.TypeStar

/-!
# Two machines in lockstep

A machine answers an operation and goes on to a next state. A simulation relates the states
of two machines that are given the same operations: from related states both show the same
of their answers, and the next states are related again. Where the simulation asks something
of an operation and the state it is given in, a run has to meet it at every step.
-/

namespace Lockstep

variable {O S T : Type*} {A : O → Type*}

/-- A machine over operations `O` with the answers `A`. -/
abbrev Machine (O S : Type*) (A : O → Type*) := (o : O) → S → A o × S

/-- The state after some operations. -/
def after (m : Machine O S A) (s : S) (ops : List O) : S :=
  ops.foldl (fun s o => (m o s).2) s

/-- Every operation meets `P` in the state it is given in. -/
def Along (m : Machine O S A) (P : O → S → Prop) : S → List O → Prop
  | _, [] => True
  | s, o :: ops => P o s ∧ Along m P (m o s).2 ops

/-- Related states show the same of an answer that meets `P`, and stay related. -/
structure Simulation (m : Machine O S A) (n : Machine O T A) (P : O → S → Prop)
    (seen : ∀ o, A o → A o) (R : S → T → Prop) : Prop where
  answer : ∀ {o s t}, R s t → P o s → seen o (m o s).1 = seen o (n o t).1
  next : ∀ {o s t}, R s t → P o s → R (m o s).2 (n o t).2

variable {m : Machine O S A} {n : Machine O T A} {P : O → S → Prop} {seen : ∀ o, A o → A o}
  {R : S → T → Prop} {s : S} {t : T} {o : O} {ops before rest : List O}

@[simp] theorem after_cons : after m s (o :: ops) = after m (m o s).2 ops := rfl

theorem after_append_singleton : after m s (before ++ [o]) = (m o (after m s before)).2 := by
  simp [after]

/-- A run that goes on meets `P` before and at the operation it goes on with. -/
theorem Along.split (h : Along m P s (before ++ o :: rest)) :
    Along m P s before ∧ P o (after m s before) := by
  induction before generalizing s with
  | nil => exact ⟨trivial, h.1⟩
  | cons o' before ih =>
      obtain ⟨hbefore, ho⟩ := ih h.2
      exact ⟨⟨h.1, hbefore⟩, ho⟩

theorem after_append : after m s (before ++ ops) = after m (after m s before) ops :=
  List.foldl_append

/-- The rest of a run meets `P` as well. -/
theorem Along.later (h : Along m P s (before ++ ops)) : Along m P (after m s before) ops := by
  induction before generalizing s with
  | nil => exact h
  | cons o before ih => exact ih h.2

section HandedOut

variable {ι : Type*} (out : ∀ o, A o → List ι)

end HandedOut

namespace Simulation

variable (sim : Simulation m n P seen R)

include sim

/-- The machines stay related over a run. -/
theorem run (hR : R s t) (hP : Along m P s ops) : R (after m s ops) (after n t ops) := by
  induction ops generalizing s t with
  | nil => exact hR
  | cons o ops ih => exact ih (sim.next hR hP.1) hP.2

/-- At every operation of a run they show the same, and are related before and after it. -/
theorem at_op (hR : R s t) (hP : Along m P s (before ++ o :: rest)) :
    seen o (m o (after m s before)).1 = seen o (n o (after n t before)).1 ∧
      R (after m s (before ++ [o])) (after n t (before ++ [o])) := by
  obtain ⟨hbefore, ho⟩ := hP.split
  have hrelated := sim.run hR hbefore
  rw [after_append_singleton, after_append_singleton]
  exact ⟨sim.answer hrelated ho, sim.next hrelated ho⟩

/-- A stronger condition on the operations is enough. -/
theorem imp {Q : O → S → Prop} (himp : ∀ {o s}, Q o s → P o s) : Simulation m n Q seen R where
  answer hR hQ := sim.answer hR (himp hQ)
  next hR hQ := sim.next hR (himp hQ)

end Simulation

end Lockstep
