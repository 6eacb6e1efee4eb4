import Mathlib.Order.RelClasses

/-!
# Loops with a measure

A loop takes one step after the other until there is none to take. Each step logs an entry
and decreases a measure, so a run ends; what holds of a run is proved by what one step does.
-/

namespace Effect

variable {S L α : Type*} [WellFoundedRelation α]

/-- The steps of a loop, what each logs, and the measure that each decreases. -/
structure Loop (S L α : Type*) [WellFoundedRelation α] where
  step : S → Option (L × S)
  measure : S → α
  decreases : ∀ s l t, step s = some (l, t) → WellFoundedRelation.rel (measure t) (measure s)

namespace Loop

variable (loop : Loop S L α)

/-- The log of the run from a state, and the state in which it ends. -/
def run (s : S) : List L × S :=
  match _h : loop.step s with
  | none => ([], s)
  | some (l, t) => (l :: (run t).1, (run t).2)
termination_by loop.measure s
decreasing_by all_goals exact loop.decreases s l t _h

variable {loop} {s t : S} {l : L}

theorem run_of_none (h : loop.step s = none) : loop.run s = ([], s) := by
  rw [run]
  split
  · rfl
  next h' => cases h.symm.trans h'

theorem run_of_some (h : loop.step s = some (l, t)) :
    loop.run s = (l :: (loop.run t).1, (loop.run t).2) := by
  rw [run]
  split
  next h' => cases h.symm.trans h'
  next h' =>
    cases h.symm.trans h'
    rfl

/-- What the end of a loop has, and every step passes on to the state before it, each run
has. -/
theorem run_induction {P : S → List L → S → Prop} (hstop : ∀ s, loop.step s = none → P s [] s)
    (hstep : ∀ s l t log u, loop.step s = some (l, t) → P t log u → P s (l :: log) u) (s : S) :
    P s (loop.run s).1 (loop.run s).2 := by
  induction s using Loop.run.induct loop with
  | case1 s h =>
      rw [run_of_none h]
      exact hstop s h
  | case2 s l t h ih =>
      rw [run_of_some h]
      exact hstep s l t _ _ h ih

/-- A loop whose steps are those of another one, seen through `f`, has the runs of the other. -/
theorem run_map {S' α' : Type*} [WellFoundedRelation α'] {loop' : Loop S' L α'} (f : S' → S)
    (h : ∀ s, (loop'.step s).map (Prod.map id f) = loop.step (f s)) (s : S') :
    Prod.map id f (loop'.run s) = loop.run (f s) := by
  induction s using Loop.run.induct loop' with
  | case1 s hstop =>
      have hstop' := h s
      rw [hstop] at hstop'
      rw [run_of_none hstop, run_of_none hstop'.symm]
      rfl
  | case2 s l t hstep ih =>
      have hstep' := h s
      rw [hstep] at hstep'
      rw [run_of_some hstep, run_of_some hstep'.symm, ← ih]
      rfl

/-- A run ends where there is no step to take. -/
theorem step_run (s : S) : loop.step (loop.run s).2 = none :=
  run_induction (P := fun _ _ u => loop.step u = none) (fun _ h => h) (fun _ _ _ _ _ _ h => h) s

end Loop

end Effect
