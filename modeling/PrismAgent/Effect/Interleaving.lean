import Mathlib.Logic.Function.Basic
import PrismAgent.Effect.Typestate

/-!
# Interleaved programs

A pool holds the programs of several invocations and the state that they share. One
step of the pool is one call of one of them; a schedule lists whose turn it is, so
that the runs of all schedules are the interleavings of the programs.
-/

namespace Effect

open Function (update)

universe u

variable {ι E S : Type*} {R : E → Type u} {ε α : Type u}

/-- Invocations at work and the state they share. -/
structure Pool (ι E : Type*) (R : E → Type u) (ε α : Type u) (S : Type*) where
  program : ι → Program E R ε α
  state : S

namespace Pool

variable [DecidableEq ι] (sem : Semantics E R ε S)

/-- Invocation `i` makes its next call; one that has ended stays as it is. -/
def step (pool : Pool ι E R ε α S) (i : ι) : Pool ι E R ε α S :=
  match pool.program i with
  | .call e k =>
      { program := update pool.program i (k (sem e pool.state).1)
        state := (sem e pool.state).2 }
  | _ => pool

section Step

variable {sem} {pool : Pool ι E R ε α S} {i : ι}

theorem step_of_pure {a : α} (h : pool.program i = .pure a) : pool.step sem i = pool := by
  unfold step
  rw [h]

theorem step_of_raise {x : ε} (h : pool.program i = .raise x) : pool.step sem i = pool := by
  unfold step
  rw [h]

theorem step_of_call {e : E} {k : Except ε (R e) → Program E R ε α}
    (h : pool.program i = .call e k) :
    pool.step sem i = { program := update pool.program i (k (sem e pool.state).1)
                        state := (sem e pool.state).2 } := by
  unfold step
  rw [h]

end Step

/-- The pool after the steps of a schedule. -/
def run (pool : Pool ι E R ε α S) (schedule : List ι) : Pool ι E R ε α S :=
  schedule.foldl (step sem) pool

/-- Every step of the schedule meets a condition on the pool it is taken in. -/
def Meets (C : Pool ι E R ε α S → ι → Prop) : Pool ι E R ε α S → List ι → Prop
  | _, [] => True
  | pool, i :: schedule => C pool i ∧ Meets C (pool.step sem i) schedule

theorem meets_append {C : Pool ι E R ε α S → ι → Prop} {pool : Pool ι E R ε α S}
    {schedule schedule' : List ι} :
    Meets sem C pool (schedule ++ schedule') ↔
      Meets sem C pool schedule ∧ Meets sem C (pool.run sem schedule) schedule' := by
  induction schedule generalizing pool with
  | nil => exact (and_iff_right trivial).symm
  | cons i schedule ih => exact (and_congr_right fun _ => ih).trans and_assoc.symm

variable {sem} {C : Pool ι E R ε α S → ι → Prop} {I : Pool ι E R ε α S → Prop}

/-- An invariant of the calls that meet a condition is one of every schedule whose steps
all meet it. -/
theorem run_invariant
    (hI : ∀ pool i e k, pool.program i = .call e k → C pool i → I pool →
      I { program := update pool.program i (k (sem e pool.state).1)
          state := (sem e pool.state).2 })
    {pool : Pool ι E R ε α S} {schedule : List ι} (hC : Meets sem C pool schedule)
    (h : I pool) : I (pool.run sem schedule) := by
  induction schedule generalizing pool with
  | nil => exact h
  | cons i schedule ih =>
      refine ih hC.2 ?_
      cases hp : pool.program i with
      | pure a => rwa [step_of_pure hp]
      | raise x => rwa [step_of_raise hp]
      | call e k =>
          rw [step_of_call hp]
          exact hI pool i e k hp hC.1 h

/-- No turn of the schedule is a call in `P`. -/
def avoids (sem : Semantics E R ε S) (P : E → Bool) : Pool ι E R ε α S → List ι → Bool
  | _, [] => true
  | pool, i :: schedule =>
      (match pool.program i with
        | .call e _ => !P e
        | _ => true) && avoids sem P (pool.step sem i) schedule

/-- A condition on the calls in `P` only is met by a schedule that avoids them. -/
theorem meets_of_avoids {P : E → Bool}
    (hC : ∀ (pool : Pool ι E R ε α S) i,
      (∀ e k, pool.program i = .call e k → P e = false) → C pool i)
    {pool : Pool ι E R ε α S} {schedule : List ι} (h : avoids sem P pool schedule = true) :
    Meets sem C pool schedule := by
  induction schedule generalizing pool with
  | nil => trivial
  | cons i schedule ih =>
      rw [avoids, Bool.and_eq_true] at h
      refine ⟨hC pool i fun e k hp => ?_, ih h.2⟩
      have hturn := h.1
      rw [hp] at hturn
      exact Bool.not_eq_true' _ ▸ hturn

section Typestates

variable {T : Type*} {A : ι → Typestate T E R ε} {Q : α → T → Prop} {J : (ι → T) → S → Prop}

/-- A call that its typestate allows leaves every invocation with a typestate. -/
theorem obeys_update {pool : Pool ι E R ε α S} {stages : ι → T} {i : ι} {e : E}
    {k : Except ε (R e) → Program E R ε α} {r : Except ε (R e)}
    (hp : pool.program i = .call e k) (hobeys : ∀ j, (pool.program j).Obeys (A j) Q (stages j))
    (hanswer : (A i).answers e r) (j : ι) :
    (update pool.program i (k r) j).Obeys (A j) Q
      (update stages i ((A i).next (stages i) e r) j) := by
  by_cases hj : j = i
  · subst hj
    have hi := hobeys j
    rw [hp] at hi
    simp only [Function.update_self]
    exact hi.2 _ hanswer
  · simp only [Function.update_of_ne hj]
    exact hobeys j

/-- Each invocation follows its typestate. A joint invariant of the typestates and the
state that makes the answers true, and that is kept by the calls the typestates allow, is
one of every schedule whose steps meet the condition. -/
theorem run_typestates
    (hJ : ∀ pool stages i e k, pool.program i = .call e k → C pool i →
      (∀ j, (pool.program j).Obeys (A j) Q (stages j)) → J stages pool.state →
      (A i).allows (stages i) e →
      (A i).answers e (sem e pool.state).1 ∧
        J (update stages i ((A i).next (stages i) e (sem e pool.state).1)) (sem e pool.state).2)
    {pool : Pool ι E R ε α S} {schedule : List ι} {stages : ι → T}
    (hC : Meets sem C pool schedule) (hobeys : ∀ i, (pool.program i).Obeys (A i) Q (stages i))
    (h : J stages pool.state) :
    ∃ stages', (∀ i, ((pool.run sem schedule).program i).Obeys (A i) Q (stages' i)) ∧
      J stages' (pool.run sem schedule).state := by
  refine run_invariant (I := fun pool => ∃ stages,
    (∀ i, (pool.program i).Obeys (A i) Q (stages i)) ∧ J stages pool.state) ?_ hC
    ⟨stages, hobeys, h⟩
  rintro pool i e k hp hC ⟨stages, hobeys, h⟩
  have hi := hobeys i
  rw [hp] at hi
  obtain ⟨hanswer, hkept⟩ := hJ pool stages i e k hp hC hobeys h hi.1
  exact ⟨_, obeys_update hp hobeys hanswer, hkept⟩

end Typestates

end Pool

end Effect
