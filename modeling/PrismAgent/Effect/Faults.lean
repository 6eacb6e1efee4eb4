import Mathlib.Data.Nat.Notation
import PrismAgent.Effect.Calls

/-!
# Injected faults

`sem.inject faults` runs `sem` under a script of faults: each effect, counted from
the start of the program, may raise before it takes place or after. A `Logged` state
keeps the effects that took place, so that a postcondition can speak of the point at
which a program was interrupted.
-/

namespace Effect

universe u

/-- An effect that raises, before it takes place or after. -/
inductive Fault (ε : Type u)
  | before (x : ε)
  | after (x : ε)

/-- Which of the effects of a program are struck by a fault. -/
abbrev FaultScript (ε : Type u) := ℕ → Option (Fault ε)

/-- A state, the effects that took place and the number of effects called. -/
structure Logged (E S : Type*) where
  state : S
  log : List E := []
  called : ℕ := 0

variable {E S : Type*} {R : E → Type u} {ε α β : Type u}

/-- The semantics under a script of faults. -/
def Semantics.inject (sem : Semantics E R ε S) (faults : FaultScript ε) :
    Semantics E R ε (Logged E S) := fun e s =>
  let done : Logged E S :=
    { state := (sem e s.state).2, log := s.log ++ [e], called := s.called + 1 }
  match faults s.called with
  | none => ((sem e s.state).1, done)
  | some (.before x) => (.error x, { s with called := s.called + 1 })
  | some (.after x) => (.error x, done)

namespace Program

variable {sem : Semantics E R ε S} {faults : FaultScript ε}

/-- An effect took place, or it raised and left the state as it was. -/
theorem inject_step_cases {s t : Logged E S} {e : E} {r : Except ε (R e)}
    (h : (sem.inject faults).step s e r t) :
    (∃ x, r = .error x ∧ t = ⟨s.state, s.log, s.called + 1⟩) ∨
      (r = (sem e s.state).1 ∨ ∃ x, r = .error x) ∧
        t = ⟨(sem e s.state).2, s.log ++ [e], s.called + 1⟩ := by
  unfold Semantics.step Semantics.inject at h
  dsimp only at h
  split at h
  · obtain ⟨rfl, rfl⟩ := Prod.mk.inj h
    exact .inr ⟨.inl rfl, rfl⟩
  · obtain ⟨rfl, rfl⟩ := Prod.mk.inj h
    exact .inl ⟨_, rfl, rfl⟩
  · obtain ⟨rfl, rfl⟩ := Prod.mk.inj h
    exact .inr ⟨.inr ⟨_, rfl⟩, rfl⟩

/-- An invariant of the state and the log, kept by the effects the program calls, holds
wherever the program ends or is interrupted. -/
theorem wp_inject_of_onlyCalls {P : E → Prop} {I : S → List E → Prop}
    (hI : ∀ s log e, P e → I s log → I (sem e s).2 (log ++ [e])) {p : Program E R ε α}
    {s : Logged E S} (hp : p.OnlyCalls P) (hs : I s.state s.log) :
    p.wp (sem.inject faults).step (fun _ t => I t.state t.log) s := by
  have hkeep : ∀ (s : Logged E S) e r t, P e → (sem.inject faults).step s e r t →
      I s.state s.log → I t.state t.log := by
    intro s e r t he hstep hs
    rcases inject_step_cases hstep with ⟨x, -, rfl⟩ | ⟨-, rfl⟩
    · exact hs
    · exact hI _ _ _ he hs
  exact wp_of_onlyCalls hkeep hp hs

section Sequence

variable {Q : Except ε β → Logged E S → Prop} {s : Logged E S}

/-- A part that keeps `I`, followed by a program that starts wherever `I` holds. -/
theorem wp_inject_bind {P : E → Prop} {I : S → List E → Prop}
    (hI : ∀ s log e, P e → I s log → I (sem e s).2 (log ++ [e]))
    {p : Program E R ε α} {f : α → Program E R ε β} (hp : p.OnlyCalls P)
    (hs : I s.state s.log) (herror : ∀ x t, I t.state t.log → Q (.error x) t)
    (hf : ∀ a t, I t.state t.log → (f a).wp (sem.inject faults).step Q t) :
    (p >>= f).wp (sem.inject faults).step Q s := by
  rw [wp_bind]
  apply wp_mono (wp_inject_of_onlyCalls hI hp hs)
  intro r t ht
  cases r with
  | ok a => exact hf a t ht
  | error x => exact herror x t ht

/-- One effect: it does not take place, it takes place and raises, or the program goes
on with the answer that the semantics gives. -/
theorem wp_inject_perform {e : E} {f : R e → Program E R ε β}
    (hbefore : ∀ x n, Q (.error x) ⟨s.state, s.log, n⟩)
    (hafter : ∀ x n, Q (.error x) ⟨(sem e s.state).2, s.log ++ [e], n⟩)
    (hdone : ∀ a n, (sem e s.state).1 = .ok a →
      (f a).wp (sem.inject faults).step Q ⟨(sem e s.state).2, s.log ++ [e], n⟩) :
    (perform e >>= f).wp (sem.inject faults).step Q s := by
  rw [wp_bind, wp_perform]
  intro r t hstep
  rcases inject_step_cases hstep with ⟨x, rfl, rfl⟩ | ⟨hanswer | ⟨x, rfl⟩, rfl⟩
  · exact hbefore x _
  · cases r with
    | ok a => exact hdone a _ hanswer.symm
    | error x => exact hafter x _
  · exact hafter x _

end Sequence

end Program

end Effect
