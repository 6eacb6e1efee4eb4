import PrismAgent.Effect.Program

/-!
# Weakest preconditions of effect programs

A step relation `step s e r t` says that in state `s` the effect `e` may be
answered by `r` and leave state `t`. `wp step p Q s` holds when every execution
of `p` from `s` ends in a result and a state that satisfy `Q`. The rules follow
the program's syntax, so a proof walks through a program effect by effect.

Two relations are built in: `Semantics.step`, one answer for each effect, and
`logged`, where nothing is known of the answers and the calls are listed.
-/

namespace Effect

/-- A deterministic semantics: the answer of each effect and the state after it. -/
abbrev Semantics (E : Type*) (R : E → Type*) (ε S : Type*) :=
  (e : E) → S → Except ε (R e) × S

/-- What an effect may do. -/
abbrev StepRelation (E : Type*) (R : E → Type*) (ε S : Type*) :=
  S → (e : E) → Except ε (R e) → S → Prop

universe u

variable {E S : Type*} {R : E → Type u} {ε α β : Type u}

namespace Semantics

/-- Every effect takes place exactly as the semantics says. -/
def step (sem : Semantics E R ε S) : StepRelation E R ε S :=
  fun s e r t => (r, t) = sem e s

/-- Run a program against a deterministic semantics. -/
def exec (sem : Semantics E R ε S) : Program E R ε α → S → Except ε α × S
  | .pure a, s => (.ok a, s)
  | .raise x, s => (.error x, s)
  | .call e k, s => exec sem (k (sem e s).1) (sem e s).2

theorem exec_bind (sem : Semantics E R ε S) (p : Program E R ε α)
    (f : α → Program E R ε β) (s : S) :
    sem.exec (p.bind f) s =
      match sem.exec p s with
      | (.ok a, t) => sem.exec (f a) t
      | (.error x, t) => (.error x, t) := by
  induction p generalizing s with
  | pure a => rfl
  | raise x => rfl
  | call e k ih => exact ih _ _

end Semantics

/-- The state is the list of the effects called so far; they may be answered by anything. -/
def logged : StepRelation E R ε (List E) := fun calls e _ calls' => calls' = calls ++ [e]

namespace Program

variable {step : StepRelation E R ε S}

/-- Every execution of the program ends with a result and a state in `Q`. -/
def wp (step : StepRelation E R ε S) :
    Program E R ε α → (Except ε α → S → Prop) → S → Prop
  | .pure a, Q, s => Q (.ok a) s
  | .raise x, Q, s => Q (.error x) s
  | .call e k, Q, s => ∀ r t, step s e r t → (k r).wp step Q t

/-- Continue with `f` on a value, keep an exception. -/
def andThen (step : StepRelation E R ε S) (f : α → Program E R ε β)
    (Q : Except ε β → S → Prop) : Except ε α → S → Prop
  | .ok a, t => (f a).wp step Q t
  | .error x, t => Q (.error x) t

/-- Continue with the handler on an exception, keep a value. -/
def orElse (step : StepRelation E R ε S) (handler : ε → Program E R ε α)
    (Q : Except ε α → S → Prop) : Except ε α → S → Prop
  | .ok a, t => Q (.ok a) t
  | .error x, t => (handler x).wp step Q t

section Rules

variable (Q : Except ε α → S → Prop) (s : S)

@[simp] theorem andThen_ok (f : α → Program E R ε β) (Q : Except ε β → S → Prop) (a : α) :
    andThen step f Q (.ok a) s = (f a).wp step Q s := rfl

@[simp] theorem andThen_error (f : α → Program E R ε β) (Q : Except ε β → S → Prop) (x : ε) :
    andThen step f Q (.error x) s = Q (.error x) s := rfl

@[simp] theorem orElse_ok (handler : ε → Program E R ε α) (a : α) :
    orElse step handler Q (.ok a) s = Q (.ok a) s := rfl

@[simp] theorem orElse_error (handler : ε → Program E R ε α) (x : ε) :
    orElse step handler Q (.error x) s = (handler x).wp step Q s := rfl

@[simp] theorem wp_pure (a : α) :
    wp step (Pure.pure a : Program E R ε α) Q s = Q (.ok a) s := rfl

@[simp] theorem wp_raise (x : ε) : wp step (raise x) Q s = Q (.error x) s := rfl

@[simp] theorem wp_bind (p : Program E R ε α) (f : α → Program E R ε β)
    (Q : Except ε β → S → Prop) :
    (p >>= f).wp step Q s ↔ p.wp step (andThen step f Q) s := by
  change (p.bind f).wp step Q s ↔ _
  induction p generalizing s with
  | pure a => rfl
  | raise x => rfl
  | call e k ih =>
      exact forall_congr' fun r => forall_congr' fun t => imp_congr_right fun _ => ih r t

theorem wp_attempt (p : Program E R ε α) (Q : Except ε (Except ε α) → S → Prop) :
    p.attempt.wp step Q s ↔ p.wp step (fun r t => Q (.ok r) t) s := by
  induction p generalizing s with
  | pure a => rfl
  | raise x => rfl
  | call e k ih =>
      exact forall_congr' fun r => forall_congr' fun t => imp_congr_right fun _ => ih r t

@[simp] theorem wp_tryCatch (p : Program E R ε α) (handler : ε → Program E R ε α) :
    (p.tryCatch handler).wp step Q s ↔ p.wp step (orElse step handler Q) s := by
  change (p.attempt >>= _).wp step Q s ↔ _
  rw [wp_bind, wp_attempt]
  have hpost : (fun r t => andThen step
      (fun | .ok a => Program.pure a | .error x => handler x) Q (.ok r) t) =
      orElse step handler Q := by
    funext r t
    cases r <;> rfl
  exact iff_of_eq (congrArg (fun Q => p.wp step Q s) hpost)

theorem wp_perform (e : E) (Q : Except ε (R e) → S → Prop) :
    (perform e : Program E R ε (R e)).wp step Q s ↔ ∀ r t, step s e r t → Q r t := by
  refine forall_congr' fun r => forall_congr' fun t => imp_congr_right fun _ => ?_
  cases r <;> rfl

theorem wp_mono {p : Program E R ε α} {Q Q' : Except ε α → S → Prop} {s : S}
    (h : p.wp step Q s) (hQ : ∀ r t, Q r t → Q' r t) : p.wp step Q' s := by
  induction p generalizing s with
  | pure a => exact hQ _ _ h
  | raise x => exact hQ _ _ h
  | call e k ih => exact fun r t hstep => ih r (h r t hstep)

/-- A program that returns, followed by one that starts where it ends. -/
theorem wp_seq {p : Program E R ε α} {f : α → Program E R ε β} {P : α → S → Prop}
    {Q : Except ε β → S → Prop} {s : S}
    (hp : p.wp step (fun r t => ∃ a, r = .ok a ∧ P a t) s)
    (hf : ∀ a t, P a t → (f a).wp step Q t) : (p >>= f).wp step Q s := by
  rw [wp_bind]
  refine wp_mono hp ?_
  rintro r t ⟨a, rfl, ha⟩
  exact hf a t ha

/-- What a program does to a view of the state, as far as every step does it to the view: the steps
keep an invariant of the state, under which they are steps of the view. -/
theorem wp_of_view {S' : Type*} {step' : StepRelation E R ε S'} {view : S → S'} {I : S → Prop}
    (hview : ∀ s e r t, I s → step s e r t → I t ∧ step' (view s) e r (view t))
    {p : Program E R ε α} {Q : Except ε α → S' → Prop} {s : S} (hs : I s)
    (h : p.wp step' Q (view s)) : p.wp step (fun r t => I t ∧ Q r (view t)) s := by
  induction p generalizing s with
  | pure a => exact ⟨hs, h⟩
  | raise x => exact ⟨hs, h⟩
  | call e k ih =>
      intro r t hstep
      obtain ⟨ht, hstep'⟩ := hview s e r t hs hstep
      exact ih r ht (h r (view t) hstep')

theorem wp_perform_logged (e : E) (Q : Except ε (R e) → List E → Prop) (calls : List E) :
    (perform e : Program E R ε (R e)).wp logged Q calls ↔ ∀ r, Q r (calls ++ [e]) := by
  rw [wp_perform]
  exact forall_congr' fun r => ⟨fun h => h _ rfl, fun h t ht => ht ▸ h⟩

end Rules

section Deterministic

variable (sem : Semantics E R ε S) (s : S)

@[simp] theorem wp_perform_step (e : E) (Q : Except ε (R e) → S → Prop) :
    (perform e : Program E R ε (R e)).wp sem.step Q s ↔ Q (sem e s).1 (sem e s).2 := by
  rw [wp_perform]
  constructor
  · exact fun h => h _ _ rfl
  · intro h r t hstep
    rw [Semantics.step] at hstep
    rwa [← hstep] at h

@[simp] theorem wp_attempt_perform_step (e : E) (Q : Except ε (Except ε (R e)) → S → Prop) :
    (perform e : Program E R ε (R e)).attempt.wp sem.step Q s ↔
      Q (.ok (sem e s).1) (sem e s).2 := by
  rw [wp_attempt, wp_perform_step]

/-- Against a deterministic semantics `wp` speaks of the one execution. -/
theorem wp_step_iff (p : Program E R ε α) (Q : Except ε α → S → Prop) :
    p.wp sem.step Q s ↔ Q (sem.exec p s).1 (sem.exec p s).2 := by
  induction p generalizing s with
  | pure a => rfl
  | raise x => rfl
  | call e k ih =>
      constructor
      · exact fun h => (ih _ _).1 (h _ _ rfl)
      · intro h r t hstep
        rw [Semantics.step] at hstep
        refine (ih r t).2 ?_
        rwa [Semantics.exec, ← hstep] at h

end Deterministic

end Program

end Effect
