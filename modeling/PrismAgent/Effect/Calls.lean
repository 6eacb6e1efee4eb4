import PrismAgent.Effect.WeakestPrecondition

/-!
# The effects a program may call

A contract says which effects a program may call and which answers it is given.
`p.Respects C Q` says that `p`, as long as it is answered by the contract, keeps
to it and returns values in `Q`. An invariant that makes the contract's answers
true and is kept by its calls then holds at the end of the program.

`p.OnlyCalls P` is the contract that assumes nothing: the frame rule for
everything a program does not touch.
-/

namespace Effect

universe u

variable {E S : Type*} {R : E → Type u} {ε α β : Type u}

/-- Which effects may be called and which answers they are given. -/
structure Contract (E : Type*) (R : E → Type u) (ε : Type u) where
  calls : E → Prop
  answers : (e : E) → Except ε (R e) → Prop := fun _ _ => True

namespace Program

/-- Under the contract's answers the program calls only the contract's effects and
returns values in `Q`. -/
def Respects (C : Contract E R ε) (Q : α → Prop) : Program E R ε α → Prop
  | .pure a => Q a
  | .raise _ => True
  | .call e k => C.calls e ∧ ∀ r, C.answers e r → (k r).Respects C Q

section Respects

variable {C : Contract E R ε} {Q Q' : α → Prop}

theorem respects_perform {e : E} {Q : R e → Prop} (he : C.calls e)
    (hQ : ∀ a, C.answers e (.ok a) → Q a) :
    Respects C Q (perform e : Program E R ε (R e)) := by
  refine ⟨he, fun r hr => ?_⟩
  cases r with
  | ok a => exact hQ a hr
  | error x => trivial

theorem Respects.mono {p : Program E R ε α} (hp : p.Respects C Q) (hQ : ∀ a, Q a → Q' a) :
    p.Respects C Q' := by
  induction p with
  | pure a => exact hQ a hp
  | raise x => trivial
  | call e k ih => exact ⟨hp.1, fun r hr => ih r (hp.2 r hr)⟩

theorem Respects.bind {p : Program E R ε α} {f : α → Program E R ε β} {Q' : β → Prop}
    (hp : p.Respects C Q) (hf : ∀ a, Q a → (f a).Respects C Q') :
    (p >>= f).Respects C Q' := by
  change (p.bind f).Respects C Q'
  induction p with
  | pure a => exact hf a hp
  | raise x => trivial
  | call e k ih => exact ⟨hp.1, fun r hr => ih r (hp.2 r hr)⟩

theorem Respects.attempt {p : Program E R ε α} (hp : p.Respects C Q) :
    p.attempt.Respects C fun r => ∀ a, r = .ok a → Q a := by
  induction p with
  | pure a =>
      rintro _ ⟨⟩
      exact hp
  | raise x =>
      rintro _ ⟨⟩
  | call e k ih => exact ⟨hp.1, fun r hr => ih r (hp.2 r hr)⟩

theorem Respects.tryCatch {p : Program E R ε α} {handler : ε → Program E R ε α}
    (hp : p.Respects C Q) (hhandler : ∀ x, (handler x).Respects C Q) :
    (p.tryCatch handler).Respects C Q := by
  refine Respects.bind hp.attempt fun r hr => ?_
  cases r with
  | ok a => exact hr a rfl
  | error x => exact hhandler x

/-- A program keeps every invariant that its contract's calls keep and that makes
its contract's answers true. -/
theorem wp_of_respects {step : StepRelation E R ε S} {I : S → Prop}
    (hI : ∀ s e r t, C.calls e → step s e r t → I s → C.answers e r ∧ I t)
    {p : Program E R ε α} {s : S} (hp : p.Respects C Q) (hs : I s) :
    p.wp step (fun r t => I t ∧ ∀ a, r = .ok a → Q a) s := by
  induction p generalizing s with
  | pure a =>
      refine ⟨hs, ?_⟩
      rintro _ ⟨⟩
      exact hp
  | raise x =>
      refine ⟨hs, ?_⟩
      rintro _ ⟨⟩
  | call e k ih =>
      intro r t hstep
      obtain ⟨hr, ht⟩ := hI s e r t hp.1 hstep hs
      exact ih r (hp.2 r hr) ht

end Respects

/-- Every effect that the program can call is in `P`. -/
def OnlyCalls (P : E → Prop) (p : Program E R ε α) : Prop :=
  p.Respects { calls := P } fun _ => True

section OnlyCalls

variable {P : E → Prop}

@[simp] theorem onlyCalls_perform (e : E) :
    OnlyCalls P (perform e : Program E R ε (R e)) ↔ P e := by
  constructor
  · intro h
    exact h.1
  · intro h
    exact respects_perform h fun _ _ => trivial

theorem OnlyCalls.bind {p : Program E R ε α} {f : α → Program E R ε β}
    (hp : p.OnlyCalls P) (hf : ∀ a, (f a).OnlyCalls P) : (p >>= f).OnlyCalls P :=
  Respects.bind hp fun a _ => hf a

theorem OnlyCalls.attempt {p : Program E R ε α} (hp : p.OnlyCalls P) :
    p.attempt.OnlyCalls P :=
  Respects.mono (Respects.attempt hp) fun _ _ => trivial

theorem OnlyCalls.tryCatch {p : Program E R ε α} {handler : ε → Program E R ε α}
    (hp : p.OnlyCalls P) (hhandler : ∀ x, (handler x).OnlyCalls P) :
    (p.tryCatch handler).OnlyCalls P :=
  Respects.tryCatch hp hhandler

/-- A program that calls only `P` respects every contract that allows `P`. -/
theorem OnlyCalls.respects {C : Contract E R ε} {p : Program E R ε α} (hp : p.OnlyCalls P)
    (h : ∀ e, P e → C.calls e) : p.Respects C fun _ => True := by
  induction p with
  | pure a => trivial
  | raise x => trivial
  | call e k ih => exact ⟨h e hp.1, fun r _ => ih r (hp.2 r trivial)⟩

theorem OnlyCalls.mono {P' : E → Prop} {p : Program E R ε α} (hp : p.OnlyCalls P)
    (h : ∀ e, P e → P' e) : p.OnlyCalls P' :=
  hp.respects h

/-- A program that calls only `P` keeps to a contract without any other calls. -/
theorem Respects.and_onlyCalls {C : Contract E R ε} {Q : α → Prop} {p : Program E R ε α}
    (hp : p.Respects C Q) (h : p.OnlyCalls P) :
    p.Respects { calls := fun e => C.calls e ∧ P e, answers := C.answers } Q := by
  induction p with
  | pure a => exact hp
  | raise x => trivial
  | call e k ih => exact ⟨⟨hp.1, h.1⟩, fun r hr => ih r (hp.2 r hr) (h.2 r trivial)⟩

theorem onlyCalls_true (p : Program E R ε α) : p.OnlyCalls fun _ => True := by
  induction p with
  | pure a => trivial
  | raise x => trivial
  | call e k ih => exact ⟨trivial, fun r _ => ih r⟩

/-- If every effect in `P` keeps `I`, a program that calls nothing else ends
in `I`. -/
theorem wp_of_onlyCalls {step : StepRelation E R ε S} {I : S → Prop}
    (hI : ∀ s e r t, P e → step s e r t → I s → I t) {p : Program E R ε α} {s : S}
    (hp : p.OnlyCalls P) (hs : I s) : p.wp step (fun _ t => I t) s := by
  refine wp_mono (wp_of_respects ?_ hp hs) ?_
  · intro s e r t he hstep hs
    exact ⟨trivial, hI s e r t he hstep hs⟩
  · intro r t h
    exact h.1

end OnlyCalls

/-- Some answers make the program return `a`. -/
def MayReturn (a : α) : Program E R ε α → Prop
  | .pure b => b = a
  | .raise _ => False
  | .call _ k => ∃ r, (k r).MayReturn a

section MayReturn

variable {a : α}

@[simp] theorem mayReturn_pure (b : α) :
    MayReturn a (Pure.pure b : Program E R ε α) ↔ b = a := Iff.rfl

@[simp] theorem mayReturn_raise (x : ε) : ¬ MayReturn a (raise x : Program E R ε α) := id

theorem mayReturn_bind {p : Program E R ε α} {f : α → Program E R ε β} {b : β} :
    (p >>= f).MayReturn b ↔ ∃ a, p.MayReturn a ∧ (f a).MayReturn b := by
  change (p.bind f).MayReturn b ↔ _
  induction p with
  | pure a =>
      constructor
      · exact fun h => ⟨a, rfl, h⟩
      · rintro ⟨_, rfl, h⟩
        exact h
  | raise x => simp [Program.bind, MayReturn]
  | call e k ih =>
      constructor
      · rintro ⟨r, h⟩
        obtain ⟨a, ha, hb⟩ := (ih r).1 h
        exact ⟨a, ⟨r, ha⟩, hb⟩
      · rintro ⟨a, ⟨r, ha⟩, hb⟩
        exact ⟨r, (ih r).2 ⟨a, ha, hb⟩⟩

/-- What a program that keeps to its calls returns is what it may return. -/
theorem OnlyCalls.respects_mayReturn {P : E → Prop} {C : Contract E R ε}
    {p : Program E R ε α} (hp : p.OnlyCalls P) (h : ∀ e, P e → C.calls e) :
    p.Respects C fun a => p.MayReturn a := by
  induction p with
  | pure a => rfl
  | raise x => trivial
  | call e k ih =>
      refine ⟨h e hp.1, fun r _ => ?_⟩
      exact (ih r (hp.2 r trivial)).mono fun a ha => ⟨r, ha⟩

/-- What a program may return is what it returns under answers that are not restricted. -/
theorem Respects.of_mayReturn {C : Contract E R ε} {Q : α → Prop} {p : Program E R ε α}
    (hp : p.Respects C Q) (hanswers : ∀ e r, C.answers e r) (h : p.MayReturn a) : Q a := by
  induction p with
  | pure b => exact h ▸ hp
  | raise x => exact h.elim
  | call e k ih =>
      obtain ⟨r, hr⟩ := h
      exact ih r (hp.2 r (hanswers e r)) hr

end MayReturn

/-- As long as no effect raises, the program returns. -/
def Returns : Program E R ε α → Prop
  | .pure _ => True
  | .raise _ => False
  | .call _ k => ∀ a, (k (.ok a)).Returns

section Returns

theorem returns_perform (e : E) : Returns (perform e : Program E R ε (R e)) := fun _ => trivial

theorem Returns.bind {p : Program E R ε α} {f : α → Program E R ε β} (hp : p.Returns)
    (hf : ∀ a, (f a).Returns) : (p >>= f).Returns := by
  change (p.bind f).Returns
  induction p with
  | pure a => exact hf a
  | raise x => exact hp.elim
  | call e k ih => exact fun a => ih (.ok a) (hp a)

theorem Returns.exists_mayReturn [∀ e, Nonempty (R e)] {p : Program E R ε α} (hp : p.Returns) :
    ∃ a, p.MayReturn a := by
  induction p with
  | pure a => exact ⟨a, rfl⟩
  | raise x => exact hp.elim
  | call e k ih =>
      obtain ⟨answer⟩ := (inferInstance : Nonempty (R e))
      obtain ⟨a, ha⟩ := ih (.ok answer) (hp answer)
      exact ⟨a, .ok answer, ha⟩

end Returns

theorem wp_and {step : StepRelation E R ε S} {p : Program E R ε α}
    {Q Q' : Except ε α → S → Prop} {s : S} (h : p.wp step Q s) (h' : p.wp step Q' s) :
    p.wp step (fun r t => Q r t ∧ Q' r t) s := by
  induction p generalizing s with
  | pure a => exact ⟨h, h'⟩
  | raise x => exact ⟨h, h'⟩
  | call e k ih =>
      intro r t hstep
      exact ih r (h r t hstep) (h' r t hstep)

end Program

end Effect
