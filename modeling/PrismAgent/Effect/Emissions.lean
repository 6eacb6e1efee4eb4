import Mathlib.Data.List.Infix
import PrismAgent.Effect.Faults

/-!
# What an interrupted program has emitted

A program that leaves one part of the state alone and appends to another emits a list of
outputs. However it is interrupted by faults, it has emitted a prefix of them; when it
returns, all of them.
-/

namespace Effect

universe u

variable {E S K O : Type*} {R : E → Type u} {ε α β : Type u}

/-- What is watched in a state: a part that is kept and a list that grows. -/
structure Watch (S K O : Type*) where
  kept : S → K
  emitted : S → List O

/-- From `s` to `t` the watched part is kept and `outputs` are emitted. -/
structure Watch.Grows (watch : Watch S K O) (s t : S) (outputs : List O) : Prop where
  kept : watch.kept t = watch.kept s
  emitted : watch.emitted t = watch.emitted s ++ outputs

namespace Watch.Grows

variable {watch : Watch S K O} {s t t' : S} {outputs outputs' : List O}

theorem refl (watch : Watch S K O) (s : S) : watch.Grows s s [] :=
  ⟨rfl, (List.append_nil _).symm⟩

theorem trans (h : watch.Grows s t outputs) (h' : watch.Grows t t' outputs') :
    watch.Grows s t' (outputs ++ outputs') := by
  refine ⟨h'.kept.trans h.kept, ?_⟩
  rw [h'.emitted, h.emitted, List.append_assoc]

end Watch.Grows

namespace Program

variable {sem : Semantics E R ε S} {watch : Watch S K O} {I : S → Prop}

/-- A program returns what it may return. -/
theorem wp_mayReturn {step : StepRelation E R ε S} {p : Program E R ε α} {s : S} :
    p.wp step (fun r _ => ∀ a, r = .ok a → p.MayReturn a) s := by
  refine wp_mono (wp_of_respects (C := { calls := fun _ => True }) (I := fun _ => True)
    (fun _ _ _ _ _ _ _ => ⟨trivial, trivial⟩)
    (OnlyCalls.respects_mayReturn (onlyCalls_true p) fun _ _ => trivial) trivial) ?_
  exact fun _ _ h => h.2

/-- Started where `I` holds, the program emits a prefix of `outputs` under any faults, and
all of them when it returns; `I` holds where it ends. -/
def Emits (sem : Semantics E R ε S) (watch : Watch S K O) (I : S → Prop)
    (p : Program E R ε α) (outputs : List O) : Prop :=
  ∀ (faults : FaultScript ε) (s : Logged E S), I s.state →
    p.wp (sem.inject faults).step (fun r t => I t.state ∧ ∃ done, done <+: outputs ∧
      watch.Grows s.state t.state done ∧ ((∃ a, r = .ok a) → done = outputs)) s

namespace Emits

theorem pure (a : α) : Emits sem watch I (Pure.pure a : Program E R ε α) [] :=
  fun _ s hs => ⟨hs, [], List.prefix_rfl, .refl watch s.state, fun _ => rfl⟩

theorem raise (x : ε) (outputs : List O) :
    Emits sem watch I (.raise x : Program E R ε α) outputs := by
  refine fun _ s hs => ⟨hs, [], List.nil_prefix, .refl watch s.state, ?_⟩
  rintro ⟨a, ha⟩
  cases ha

/-- One effect that emits the same wherever it takes place. -/
theorem perform {e : E} {outputs : List O} (he : ∀ s, I s → I (sem e s).2 ∧
    watch.Grows s (sem e s).2 outputs) :
    Emits sem watch I (perform e : Program E R ε (R e)) outputs := by
  intro faults s hs
  rw [wp_perform]
  intro r t hstep
  rcases inject_step_cases hstep with ⟨x, rfl, rfl⟩ | ⟨-, rfl⟩
  · refine ⟨hs, [], List.nil_prefix, .refl watch s.state, ?_⟩
    rintro ⟨a, ha⟩
    cases ha
  · exact ⟨(he _ hs).1, outputs, List.prefix_rfl, (he _ hs).2, fun _ => rfl⟩

/-- The answers that a contract describes, and the effects that it allows, emit nothing. -/
theorem of_respects {C : Contract E R ε} {Q : α → Prop} {p : Program E R ε α}
    (hp : p.Respects C Q)
    (hC : ∀ s e, C.calls e → I s → I (sem e s).2 ∧ watch.Grows s (sem e s).2 [] ∧
      C.answers e (sem e s).1) (herror : ∀ e x, C.answers e (.error x)) :
    Emits sem watch I p [] := by
  intro faults s hs
  refine wp_mono (wp_of_respects (I := fun t : Logged E S => I t.state ∧
    watch.Grows s.state t.state []) ?_ hp ⟨hs, .refl watch s.state⟩) fun r t ht =>
      ⟨ht.1.1, [], List.prefix_rfl, ht.1.2, fun _ => rfl⟩
  rintro t e r t' he hstep ⟨ht, hgrows⟩
  rcases inject_step_cases hstep with ⟨x, rfl, rfl⟩ | ⟨hanswer, rfl⟩
  · exact ⟨herror e x, ht, hgrows⟩
  · obtain ⟨hI, hsilent, htrue⟩ := hC _ e he ht
    refine ⟨?_, hI, hgrows.trans hsilent⟩
    rcases hanswer with rfl | ⟨x, rfl⟩
    · exact htrue
    · exact herror e x

/-- The outputs of one part after the other. -/
theorem bind {p : Program E R ε α} {f : α → Program E R ε β} {outputs outputs' : List O}
    (hp : Emits sem watch I p outputs)
    (hf : ∀ a, p.MayReturn a → Emits sem watch I (f a) outputs') :
    Emits sem watch I (p >>= f) (outputs ++ outputs') := by
  intro faults s hs
  rw [wp_bind]
  refine wp_mono (wp_and (hp faults s hs) wp_mayReturn) ?_
  rintro r t ⟨⟨ht, done, hprefix, hgrows, hall⟩, hmay⟩
  cases r with
  | error x =>
      refine ⟨ht, done, hprefix.trans (List.prefix_append _ _), hgrows, ?_⟩
      rintro ⟨a, ha⟩
      cases ha
  | ok a =>
      refine wp_mono (hf a (hmay a rfl) faults t ht) ?_
      rintro r' t' ⟨ht', done', hprefix', hgrows', hall'⟩
      obtain rfl := hall ⟨a, rfl⟩
      refine ⟨ht', done ++ done', ?_, hgrows.trans hgrows', fun hr => by rw [hall' hr]⟩
      exact (List.prefix_append_right_inj done).2 hprefix'

/-- A part that emits nothing before one that does. -/
theorem after {p : Program E R ε α} {f : α → Program E R ε β} {outputs : List O}
    (hp : Emits sem watch I p []) (hf : ∀ a, p.MayReturn a → Emits sem watch I (f a) outputs) :
    Emits sem watch I (p >>= f) outputs :=
  hp.bind hf

/-- A part that emits before one that emits nothing. -/
theorem before {p : Program E R ε α} {f : α → Program E R ε β} {outputs : List O}
    (hp : Emits sem watch I p outputs) (hf : ∀ a, p.MayReturn a → Emits sem watch I (f a) []) :
    Emits sem watch I (p >>= f) outputs := by
  have h := hp.bind hf
  rwa [List.append_nil] at h

end Emits

end Program

end Effect
