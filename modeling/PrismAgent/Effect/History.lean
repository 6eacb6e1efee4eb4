import PrismAgent.Effect.Interleaving

/-!
# The history of interleaved programs

The calls that the programs of a pool make under a schedule, each with its invocation and
its answer. What an invocation does next is determined by the answers of its own calls, and
an invariant of the history and the pool that every call keeps holds of every schedule.
-/

namespace Effect

open Function (update)

universe u

variable {ι E S : Type*} {R : E → Type u} {ε α : Type u}

/-- A call and its answer. -/
abbrev Event (E : Type*) (R : E → Type u) (ε : Type u) := Σ e : E, Except ε (R e)

/-- The program goes on as `q` after calls with these answers. -/
inductive Program.Continues : Program E R ε α → List (Event E R ε) → Program E R ε α → Prop
  | refl (p : Program E R ε α) : Continues p [] p
  | call {e : E} {k : Except ε (R e) → Program E R ε α} {r : Except ε (R e)}
      {events : List (Event E R ε)} {q : Program E R ε α} (h : Continues (k r) events q) :
      Continues (.call e k) (⟨e, r⟩ :: events) q

section Continues

variable {p q : Program E R ε α} {events : List (Event E R ε)}

theorem Program.Continues.snoc {e : E} {k : Except ε (R e) → Program E R ε α}
    (h : p.Continues events (.call e k)) (r : Except ε (R e)) :
    p.Continues (events ++ [⟨e, r⟩]) (k r) := by
  generalize hq : Program.call e k = q at h
  induction h with
  | refl p =>
      subst hq
      exact .call (.refl _)
  | call h ih => exact .call (ih hq)

theorem Program.continues_nil_iff : p.Continues [] q ↔ q = p := by
  constructor
  · intro h
    cases h
    rfl
  · rintro rfl
    exact .refl q

theorem Program.continues_cons_iff {e : E} {k : Except ε (R e) → Program E R ε α}
    {event : Event E R ε} :
    (Program.call e k).Continues (event :: events) q ↔
      ∃ r, event = ⟨e, r⟩ ∧ (k r).Continues events q := by
  constructor
  · intro h
    cases h with
    | call h => exact ⟨_, rfl, h⟩
  · rintro ⟨r, rfl, h⟩
    exact .call h

/-- A program that has ended reaches nothing else. -/
theorem Program.continues_pure_iff {a : α} :
    (Program.pure a : Program E R ε α).Continues events q ↔ events = [] ∧ q = .pure a := by
  constructor
  · intro h
    cases h
    exact ⟨rfl, rfl⟩
  · rintro ⟨rfl, rfl⟩
    exact .refl _

end Continues

namespace Pool

variable [DecidableEq ι] (sem : Semantics E R ε S)

/-- The call that invocation `i` makes next, if it has not ended. -/
def event? (pool : Pool ι E R ε α S) (i : ι) : List (ι × Event E R ε) :=
  match pool.program i with
  | .call e _ => [(i, ⟨e, (sem e pool.state).1⟩)]
  | _ => []

/-- The calls of a schedule, in order. -/
def history : Pool ι E R ε α S → List ι → List (ι × Event E R ε)
  | _, [] => []
  | pool, i :: schedule => event? sem pool i ++ history (pool.step sem i) schedule

/-- The calls of one invocation. -/
def eventsOf (i : ι) (h : List (ι × Event E R ε)) : List (Event E R ε) :=
  (h.filter fun x => x.1 = i).map Prod.snd

theorem mem_eventsOf {i : ι} {h : List (ι × Event E R ε)} {event : Event E R ε} :
    event ∈ eventsOf i h ↔ (i, event) ∈ h := by
  simp [eventsOf]

theorem eventsOf_append_self (i : ι) (h : List (ι × Event E R ε)) (event : Event E R ε) :
    eventsOf i (h ++ [(i, event)]) = eventsOf i h ++ [event] := by
  simp [eventsOf, List.filter_append]

theorem eventsOf_append_of_ne {i j : ι} (hij : j ≠ i) (h : List (ι × Event E R ε))
    (event : Event E R ε) : eventsOf i (h ++ [(j, event)]) = eventsOf i h := by
  simp [eventsOf, List.filter_append, hij]

variable {sem} {pool : Pool ι E R ε α S}

theorem history_append (schedule schedule' : List ι) :
    history sem pool (schedule ++ schedule') =
      history sem pool schedule ++ history sem (pool.run sem schedule) schedule' := by
  induction schedule generalizing pool with
  | nil => rfl
  | cons i schedule ih =>
      rw [List.cons_append, history, history, ih, List.append_assoc]
      rfl

section Step

variable {i : ι}

omit [DecidableEq ι] in
theorem event?_of_pure {a : α} (h : pool.program i = .pure a) : event? sem pool i = [] := by
  unfold event?
  rw [h]

omit [DecidableEq ι] in
theorem event?_of_raise {x : ε} (h : pool.program i = .raise x) : event? sem pool i = [] := by
  unfold event?
  rw [h]

omit [DecidableEq ι] in
theorem event?_of_call {e : E} {k : Except ε (R e) → Program E R ε α}
    (h : pool.program i = .call e k) :
    event? sem pool i = [(i, ⟨e, (sem e pool.state).1⟩)] := by
  unfold event?
  rw [h]

end Step

/-- An invariant of the history and the pool, kept by every call, of every schedule. The
calls so far determine where each program stands. -/
theorem history_invariant {I : List (ι × Event E R ε) → Pool ι E R ε α S → Prop}
    (hI : ∀ h now i e k, (∀ j, (pool.program j).Continues (eventsOf j h) (now.program j)) →
      now.program i = .call e k → I h now →
        I (h ++ [(i, ⟨e, (sem e now.state).1⟩)])
          { program := update now.program i (k (sem e now.state).1)
            state := (sem e now.state).2 })
    (h : I [] pool) (schedule : List ι) :
    I (history sem pool schedule) (pool.run sem schedule) ∧
      ∀ j, (pool.program j).Continues (eventsOf j (history sem pool schedule))
        ((pool.run sem schedule).program j) := by
  suffices hall : ∀ (todo : List ι) (done : List (ι × Event E R ε)) (now : Pool ι E R ε α S),
      I done now → (∀ j, (pool.program j).Continues (eventsOf j done) (now.program j)) →
        I (done ++ history sem now todo) (now.run sem todo) ∧
          ∀ j, (pool.program j).Continues (eventsOf j (done ++ history sem now todo))
            ((now.run sem todo).program j) by
    exact hall schedule [] pool h fun j => .refl _
  intro todo
  induction todo with
  | nil =>
      intro done now hdone hcontinues
      rw [history, List.append_nil]
      exact ⟨hdone, hcontinues⟩
  | cons i todo ih =>
      intro done now hdone hcontinues
      have hrun : now.run sem (i :: todo) = (now.step sem i).run sem todo := rfl
      rw [history, ← List.append_assoc, hrun]
      cases hp : now.program i with
      | pure a =>
          rw [step_of_pure hp, event?_of_pure hp, List.append_nil]
          exact ih done now hdone hcontinues
      | raise x =>
          rw [step_of_raise hp, event?_of_raise hp, List.append_nil]
          exact ih done now hdone hcontinues
      | call e k =>
          rw [step_of_call hp, event?_of_call hp]
          refine ih _ _ (hI done now i e k hcontinues hp hdone) fun j => ?_
          by_cases hj : j = i
          · subst hj
            rw [eventsOf_append_self]
            simp only [Function.update_self]
            have hnow := hcontinues j
            rw [hp] at hnow
            exact hnow.snoc _
          · rw [eventsOf_append_of_ne (Ne.symm hj)]
            simp only [Function.update_of_ne hj]
            exact hcontinues j

end Pool

end Effect
