import PrismAgent.Effect.Calls

/-!
# Typestates of programs

A typestate is an automaton over the calls of a program: it says which calls are
allowed in a state and which state an answered call leads to. `p.Obeys A Q s` says
that `p`, started in `s`, makes only allowed calls, raises only where that is
allowed, and returns values that `Q` relates to the state they are returned in.

Two uses of typestates are built in: what a program may still call before its next
grant (`Reaches`), and what it has to call before it ends (`Owes`).
-/

namespace Effect

universe u

/-- The calls allowed in each state, the answers they are given and the states they
lead to. -/
structure Typestate (T : Type*) (E : Type*) (R : E → Type u) (ε : Type u) where
  allows : T → E → Prop
  next : T → (e : E) → Except ε (R e) → T
  raises : T → Prop := fun _ => True
  answers : (e : E) → Except ε (R e) → Prop := fun _ _ => True

namespace Program

variable {T E : Type*} {R : E → Type u} {ε α β : Type u}

/-- The program follows the typestate and returns values in `Q`. -/
def Obeys (A : Typestate T E R ε) (Q : α → T → Prop) : T → Program E R ε α → Prop
  | s, .pure a => Q a s
  | s, .raise _ => A.raises s
  | s, .call e k => A.allows s e ∧ ∀ r, A.answers e r → (k r).Obeys A Q (A.next s e r)

section Obeys

variable {A : Typestate T E R ε} {Q Q' : α → T → Prop} {s t : T}

theorem Obeys.mono {p : Program E R ε α} (hp : p.Obeys A Q s) (hQ : ∀ a t, Q a t → Q' a t) :
    p.Obeys A Q' s := by
  induction p generalizing s with
  | pure a => exact hQ a s hp
  | raise x => exact hp
  | call e k ih => exact ⟨hp.1, fun r hr => ih r (hp.2 r hr)⟩

theorem Obeys.bind {p : Program E R ε α} {f : α → Program E R ε β} {Q' : β → T → Prop}
    (hp : p.Obeys A Q s) (hf : ∀ a t, Q a t → (f a).Obeys A Q' t) :
    (p >>= f).Obeys A Q' s := by
  change (p.bind f).Obeys A Q' s
  induction p generalizing s with
  | pure a => exact hf a s hp
  | raise x => exact hp
  | call e k ih => exact ⟨hp.1, fun r hr => ih r (hp.2 r hr)⟩

theorem obeys_perform {e : E} {Q : R e → T → Prop} (he : A.allows s e)
    (hok : ∀ a, A.answers e (.ok a) → Q a (A.next s e (.ok a)))
    (herror : ∀ x, A.answers e (.error x) → A.raises (A.next s e (.error x))) :
    (perform e : Program E R ε (R e)).Obeys A Q s := by
  refine ⟨he, fun r hr => ?_⟩
  cases r with
  | ok a => exact hok a hr
  | error x => exact herror x hr

/-- Calls that are allowed wherever `J` holds, and that keep it, need no typestate. -/
theorem OnlyCalls.obeys {P : E → Prop} {J : T → Prop}
    (hallows : ∀ s e, P e → J s → A.allows s e)
    (hnext : ∀ s e r, P e → J s → J (A.next s e r)) (hraises : ∀ s, J s → A.raises s)
    {p : Program E R ε α} (hp : p.OnlyCalls P) (hs : J s) : p.Obeys A (fun _ t => J t) s := by
  induction p generalizing s with
  | pure a => exact hs
  | raise x => exact hraises s hs
  | call e k ih =>
      refine ⟨hallows s e hp.1 hs, fun r _ => ?_⟩
      exact ih r (hp.2 r trivial) (hnext s e r hp.1 hs)

end Obeys

/-- The program may call an effect in `P` before an answer that is in `grants`. -/
def Reaches (P : E → Prop) (grants : (e : E) → Except ε (R e) → Prop) :
    Program E R ε α → Prop
  | .pure _ => False
  | .raise _ => False
  | .call e k => P e ∨ ∃ r, ¬ grants e r ∧ (k r).Reaches P grants

/-- However its calls are answered, unless by an exception, the program calls an effect
in `P` before it ends. -/
def Owes (P : E → Prop) : Program E R ε α → Prop
  | .pure _ => False
  | .raise _ => False
  | .call e k => P e ∨ ∀ a, (k (.ok a)).Owes P

section Calls

variable {A : Typestate T E R ε} {Q : α → T → Prop} {P : E → Prop} {J : T → Prop}
  {grants : (e : E) → Except ε (R e) → Prop} {s : T}

/-- Where the typestate allows no call in `P` before a grant, none is reached. -/
theorem Obeys.not_reaches (hans : ∀ e r, A.answers e r)
    (hP : ∀ s e, J s → A.allows s e → ¬ P e)
    (hnext : ∀ s e r, J s → A.allows s e → ¬ grants e r → J (A.next s e r))
    {p : Program E R ε α} (hp : p.Obeys A Q s) (hs : J s) : ¬ p.Reaches P grants := by
  induction p generalizing s with
  | pure a => exact id
  | raise x => exact id
  | call e k ih =>
      intro hreaches
      rcases hreaches with he | ⟨r, hr, hreaches⟩
      · exact hP s e hs hp.1 he
      · exact ih r (hp.2 r (hans e r)) (hnext s e r hs hp.1 hr) hreaches

/-- Where the typestate ends nowhere before a call in `P`, the call is owed. -/
theorem Obeys.owes (hans : ∀ s e a, J s → A.allows s e → A.answers e (.ok a))
    (hQ : ∀ a s, J s → ¬ Q a s)
    (hraises : ∀ s, J s → ¬ A.raises s)
    (hnext : ∀ s e a, J s → A.allows s e → ¬ P e → J (A.next s e (.ok a)))
    {p : Program E R ε α} (hp : p.Obeys A Q s) (hs : J s) : p.Owes P := by
  induction p generalizing s with
  | pure a => exact hQ a s hs hp
  | raise x => exact hraises s hs hp
  | call e k ih =>
      by_cases he : P e
      · exact .inl he
      · refine .inr fun a => ?_
        exact ih (.ok a) (hp.2 _ (hans s e a hs hp.1)) (hnext s e a hs hp.1 he)

end Calls

end Program

end Effect
