import PrismAgent.Effect.Faults

/-!
# Debts

An effect may leave something to be done by the effects after it: it incurs a debt,
which other effects settle. `Debts.account` follows a log and keeps what is still
owed. When all that is due in a state is owed, a program that is interrupted leaves
nothing due but the debts of its log, and `Makes` says which effects have taken place
when a program returns.
-/

namespace Effect

universe u

variable {E S D : Type*} {R : E → Type u} {ε α β : Type u}

/-- What an effect incurs in a state, and which debts it settles. -/
structure Debts (E S D : Type*) where
  incurs : S → E → List D
  settles : E → D → Bool

/-- A state and what is owed in it. -/
structure Account (S D : Type*) where
  state : S
  owed : List D := []

namespace Debts

variable (debts : Debts E S D) (sem : Semantics E R ε S)

/-- An effect settles some of the debts and incurs its own. -/
def post (a : Account S D) (e : E) : Account S D :=
  { state := (sem e a.state).2
    owed := (a.owed.filter fun d => !debts.settles e d) ++ debts.incurs a.state e }

/-- Where the effects of a log lead from `s`, and what they leave owed. -/
def account (s : S) (log : List E) : Account S D := log.foldl (debts.post sem) { state := s }

@[simp] theorem account_nil (s : S) : debts.account sem s [] = { state := s } := rfl

theorem account_concat (s : S) (log : List E) (e : E) :
    debts.account sem s (log ++ [e]) = debts.post sem (debts.account sem s log) e := by
  simp [account]

/-- Effects that incur nothing leave the debts that none of them settles. -/
theorem owed_append {s : S} {log l : List E} (hl : ∀ s, ∀ e ∈ l, debts.incurs s e = []) {d : D}
    (hd : d ∈ (debts.account sem s (log ++ l)).owed) :
    d ∈ (debts.account sem s log).owed ∧ ∀ e ∈ l, debts.settles e d = false := by
  induction l generalizing log with
  | nil =>
      rw [List.append_nil] at hd
      exact ⟨hd, List.forall_mem_nil _⟩
  | cons e l ih =>
      rw [List.append_cons] at hd
      obtain ⟨howed, hrest⟩ := ih (fun s e' he' => hl s e' (List.mem_cons_of_mem e he')) hd
      rw [account_concat, post, hl _ e List.mem_cons_self, List.append_nil] at howed
      obtain ⟨hmem, hopen⟩ := List.mem_filter.1 howed
      exact ⟨hmem, List.forall_mem_cons.2 ⟨by simpa using hopen, hrest⟩⟩

end Debts

namespace Program

variable {sem : Semantics E R ε S} {faults : FaultScript ε} {debts : Debts E S D}

section Due

/-- Along the effects in `P` the invariant is kept, and what becomes due is incurred. -/
structure Audited (sem : Semantics E R ε S) (debts : Debts E S D) (P : E → Prop)
    (I : S → Prop) (due : S → D → Prop) : Prop where
  kept : ∀ s e, P e → I s → I (sem e s).2
  due : ∀ s e d, P e → I s → due (sem e s).2 d →
    (due s d ∧ debts.settles e d = false) ∨ d ∈ debts.incurs s e

variable {P : E → Prop} {I : S → Prop} {due : S → D → Prop}

/-- Where nothing was due, an interrupted program leaves nothing due but what its log
owes. -/
theorem wp_audited (h : Audited sem debts P I due) {p : Program E R ε α} {s : S}
    (hp : p.OnlyCalls P) (hI : I s) (hdue : ∀ d, ¬ due s d) :
    p.wp (sem.inject faults).step (fun _ t => I t.state ∧
      ∀ d, due t.state d → d ∈ (debts.account sem s t.log).owed) { state := s } := by
  have hkeep : ∀ s' log e, P e → (I s' ∧ s' = (debts.account sem s log).state ∧
      ∀ d, due s' d → d ∈ (debts.account sem s log).owed) →
      I (sem e s').2 ∧ (sem e s').2 = (debts.account sem s (log ++ [e])).state ∧
        ∀ d, due (sem e s').2 d → d ∈ (debts.account sem s (log ++ [e])).owed := by
    rintro s' log e he ⟨hI, rfl, howed⟩
    rw [Debts.account_concat]
    refine ⟨h.kept _ e he hI, rfl, fun d hd => ?_⟩
    rcases h.due _ e d he hI hd with ⟨hbefore, hopen⟩ | hincurred
    · refine List.mem_append_left _ (List.mem_filter.2 ⟨howed d hbefore, ?_⟩)
      rw [hopen]
      rfl
    · exact List.mem_append_right _ hincurred
  refine wp_mono (wp_inject_of_onlyCalls hkeep hp ?_) fun _ _ ht => ⟨ht.1, ht.2.2⟩
  exact ⟨hI, rfl, fun d hd => absurd hd (hdue d)⟩

end Due

/-- The program returns only after an effect in `P` took place. -/
def Makes (P : E → Prop) : Program E R ε α → Prop
  | .pure _ => False
  | .raise _ => True
  | .call e k => (P e ∨ ∀ a, (k (.ok a)).Makes P) ∧ ∀ x, (k (.error x)).Makes P

section Makes

variable {P Q : E → Prop}

theorem makes_perform {e : E} (he : P e) : Makes P (perform e : Program E R ε (R e)) :=
  ⟨.inl he, fun _ => trivial⟩

/-- The first part makes the effect. -/
theorem Makes.left {p : Program E R ε α} (hp : p.Makes P) (f : α → Program E R ε β) :
    (p >>= f).Makes P := by
  change (p.bind f).Makes P
  induction p with
  | pure a => exact hp.elim
  | raise x => trivial
  | call e k ih =>
      refine ⟨hp.1.imp id fun hk a => ih _ (hk a), fun x => ih _ (hp.2 x)⟩

/-- The second part makes the effect, whatever the first one returns. -/
theorem Makes.right {p : Program E R ε α} {f : α → Program E R ε β}
    (hf : ∀ a, p.MayReturn a → (f a).Makes P) : (p >>= f).Makes P := by
  change (p.bind f).Makes P
  induction p with
  | pure a => exact hf a rfl
  | raise x => trivial
  | call e k ih =>
      exact ⟨.inr fun a => ih _ fun b hb => hf b ⟨_, hb⟩, fun x => ih _ fun b hb => hf b ⟨_, hb⟩⟩

/-- The log grows by the effects that a program calls. -/
theorem wp_log {p : Program E R ε α} (hp : p.OnlyCalls Q) {s : Logged E S} :
    p.wp (sem.inject faults).step (fun _ t => ∃ l, t.log = s.log ++ l ∧ ∀ e ∈ l, Q e) s := by
  refine wp_inject_of_onlyCalls (I := fun _ log => ∃ l, log = s.log ++ l ∧ ∀ e ∈ l, Q e) ?_ hp
    ⟨[], (List.append_nil _).symm, List.forall_mem_nil _⟩
  rintro s' _ e he ⟨l, rfl, hl⟩
  refine ⟨l ++ [e], List.append_assoc _ _ _, fun e' he' => ?_⟩
  rcases List.mem_append.1 he' with he' | he'
  · exact hl e' he'
  · rwa [List.mem_singleton.1 he']

theorem wp_of_makes {p : Program E R ε α} (hp : p.Makes P) {s : Logged E S} :
    p.wp (sem.inject faults).step (fun r t => (∃ a, r = .ok a) →
      ∃ l, t.log = s.log ++ l ∧ ∃ e ∈ l, P e) s := by
  induction p generalizing s with
  | pure a => exact hp.elim
  | raise x =>
      rintro ⟨a, ha⟩
      cases ha
  | call e k ih =>
      intro r t hstep
      rcases inject_step_cases hstep with ⟨x, rfl, rfl⟩ | ⟨-, rfl⟩
      · exact ih _ (hp.2 x) (s := ⟨s.state, s.log, s.called + 1⟩)
      · -- the effect has taken place, and what follows only adds to the log
        have hafter : ∀ {r}, (k r).Makes P →
            (k r).wp (sem.inject faults).step (fun r t => (∃ a, r = .ok a) →
              ∃ l, t.log = s.log ++ l ∧ ∃ e ∈ l, P e)
              ⟨(sem e s.state).2, s.log ++ [e], s.called + 1⟩ := by
          intro r hk
          refine wp_mono (ih r hk) fun _ t ht hr => ?_
          obtain ⟨l, hl, e', he', hP⟩ := ht hr
          exact ⟨e :: l, by rw [hl, List.append_assoc]; rfl, e', List.mem_cons_of_mem e he', hP⟩
        cases r with
        | error x => exact hafter (hp.2 x)
        | ok a =>
            rcases hp.1 with he | hk
            · refine wp_mono (wp_log (onlyCalls_true _)) fun _ t ht _ => ?_
              obtain ⟨l, hl, -⟩ := ht
              exact ⟨e :: l, by rw [hl, List.append_assoc]; rfl, e, List.mem_cons_self, he⟩
            · exact hafter (hk a)

end Makes

/-- What holds of every execution for each `i` holds of it for all. -/
theorem wp_forall {ι : Sort*} {step : StepRelation E R ε S} {p : Program E R ε α}
    {Q : ι → Except ε α → S → Prop} {s : S} (h : ∀ i, p.wp step (Q i) s) :
    p.wp step (fun r t => ∀ i, Q i r t) s := by
  induction p generalizing s with
  | pure a => exact h
  | raise x => exact h
  | call e k ih => exact fun r t hstep => ih r fun i => h i r t hstep

/-- A program that incurs nothing and makes what settles the debts returns without any. -/
theorem wp_settled (debts : Debts E S D) {Q : E → Prop}
    (hincurs : ∀ s e, Q e → debts.incurs s e = []) {p : Program E R ε α} {s₀ : S}
    {s : Logged E S} (hp : p.OnlyCalls Q)
    (hmakes : ∀ d ∈ (debts.account sem s₀ s.log).owed,
      p.Makes fun e => debts.settles e d = true) :
    p.wp (sem.inject faults).step (fun r t => (∃ a, r = .ok a) →
      (debts.account sem s₀ t.log).owed = []) s := by
  have hall : p.wp (sem.inject faults).step (fun r t =>
      ∀ d ∈ (debts.account sem s₀ s.log).owed, (∃ a, r = .ok a) →
        ∃ l, t.log = s.log ++ l ∧ ∃ e ∈ l, debts.settles e d = true) s :=
    wp_forall fun d => wp_forall fun hd => wp_of_makes (hmakes d hd)
  refine wp_mono (wp_and (wp_log hp) hall) ?_
  rintro r t ⟨⟨l, hlog, hl⟩, hmade⟩ hr
  refine List.eq_nil_iff_forall_not_mem.2 fun d hd => ?_
  rw [hlog] at hd
  obtain ⟨howed, hopen⟩ := debts.owed_append sem (fun s e he => hincurs s e (hl e he)) hd
  obtain ⟨l', hlog', e, he, hsettles⟩ := hmade d howed hr
  obtain rfl : l = l' := List.append_cancel_left (hlog.symm.trans hlog')
  rw [hopen e he] at hsettles
  cases hsettles

end Program

end Effect
