import Mathlib.Data.List.Basic
import Mathlib.Logic.Function.Iterate

/-!
# Draining a queue

A consumer delivers the messages of a queue one after the other, in order and once
each, and skips those that are not live; a delivery may append messages. An
abstract machine has a view and at most one token, and rests once it has none.

A consumer refines a machine when a delivery takes one or more of the machine's
steps and leaves the token, if there is one, in the queue. Then it drains its
queue exactly when the machine comes to rest, and ends with the machine's view.
-/

namespace Effect

variable {S S' M M' V T : Type*}

/-- One step of a machine: without a token it rests. -/
def advance (next : V → T → V × Option T) : V × Option T → V × Option T
  | (v, none) => (v, none)
  | (v, some token) => next v token

section Advance

variable {next : V → T → V × Option T}

@[simp] theorem advance_none (v : V) : advance next (v, none) = (v, none) := rfl

@[simp] theorem advance_some (v : V) (token : T) :
    advance next (v, some token) = next v token := rfl

@[simp] theorem advance_iterate_none (n : ℕ) (v : V) :
    (advance next)^[n] (v, none) = (v, none) :=
  Function.iterate_fixed (advance_none v) n

/-- A machine rests for good. -/
theorem advance_iterate_of_le {y : V × Option T} {v : V} {n m : ℕ}
    (h : (advance next)^[n] y = (v, none)) (hle : n ≤ m) :
    (advance next)^[m] y = (v, none) := by
  rw [← Nat.sub_add_cancel hle, Function.iterate_add_apply, h, advance_iterate_none]

/-- The view in which a machine rests is determined. -/
theorem advance_iterate_unique {y : V × Option T} {v v' : V} {n n' : ℕ}
    (h : (advance next)^[n] y = (v, none)) (h' : (advance next)^[n'] y = (v', none)) :
    v = v' := by
  have hmax := advance_iterate_of_le h (Nat.le_max_left n n')
  rw [advance_iterate_of_le h' (Nat.le_max_right n n')] at hmax
  exact (congrArg Prod.fst hmax).symm

end Advance

/-- The queue of a state, the messages that are live, and what the delivery of the
message at a position does. -/
structure Consumer (S M : Type*) where
  queue : S → List M
  live : M → Bool
  handle : ℕ → M → S → S

namespace Consumer

variable (c : Consumer S M)

/-- Deliver the message at a position, or skip it, and move behind it. -/
def step (x : S × ℕ) : S × ℕ :=
  match (c.queue x.1)[x.2]? with
  | none => x
  | some m => (if c.live m then c.handle x.2 m x.1 else x.1, x.2 + 1)

/-- The live messages from a position on. -/
def pending (x : S × ℕ) : List M := ((c.queue x.1).drop x.2).filter c.live

/-- Delivering from `x` on leaves no live message and ends in `t`. -/
def DrainsTo (x : S × ℕ) (t : S) : Prop :=
  ∃ n k, c.step^[n] x = (t, k) ∧ c.pending (t, k) = []

variable {c} {x : S × ℕ} {m : M}

theorem step_of_live (hget : (c.queue x.1)[x.2]? = some m) (hlive : c.live m = true) :
    c.step x = (c.handle x.2 m x.1, x.2 + 1) := by
  simp [step, hget, hlive]

theorem step_of_not_live (hget : (c.queue x.1)[x.2]? = some m) (hlive : c.live m = false) :
    c.step x = (x.1, x.2 + 1) := by
  simp [step, hget, hlive]

theorem drop_eq_cons_of_getElem? {l : List M} {k : ℕ} (h : l[k]? = some m) :
    l.drop k = m :: l.drop (k + 1) := by
  obtain ⟨hlt, rfl⟩ := List.getElem?_eq_some_iff.1 h
  exact List.drop_eq_getElem_cons hlt

theorem pending_of_live (hget : (c.queue x.1)[x.2]? = some m) (hlive : c.live m = true) :
    c.pending x = m :: c.pending (x.1, x.2 + 1) := by
  simp [pending, drop_eq_cons_of_getElem? hget, hlive]

theorem pending_of_not_live (hget : (c.queue x.1)[x.2]? = some m) (hlive : c.live m = false) :
    c.pending x = c.pending (x.1, x.2 + 1) := by
  simp [pending, drop_eq_cons_of_getElem? hget, hlive]

/-- The next live message is reached by skipping. -/
theorem exists_skip {ms : List M} (h : c.pending x = m :: ms) :
    ∃ n k, c.step^[n] x = (x.1, k) ∧ c.pending (x.1, k) = c.pending x ∧
      (c.queue x.1)[k]? = some m ∧ c.live m = true := by
  obtain ⟨s, k⟩ := x
  induction hrest : (c.queue s).drop k generalizing k with
  | nil => simp [pending, hrest] at h
  | cons first rest ih =>
      have hget : (c.queue s)[k]? = some first := by
        rw [← List.head?_drop, hrest]
        rfl
      cases hlive : c.live first with
      | true =>
          have hfirst : first = m := by
            rw [pending_of_live hget hlive] at h
            exact (List.cons.inj h).1
          subst hfirst
          exact ⟨0, k, rfl, rfl, hget, hlive⟩
      | false =>
          have hsame := pending_of_not_live (x := (s, k)) hget hlive
          rw [hsame] at h
          have hdrop : (c.queue s).drop (k + 1) = rest := by
            rw [drop_eq_cons_of_getElem? hget] at hrest
            exact (List.cons.inj hrest).2
          obtain ⟨n, k', hstep, hpending, hfound⟩ := ih (k + 1) h hdrop
          refine ⟨n + 1, k', ?_, hpending.trans hsame.symm, hfound⟩
          rw [Function.iterate_succ_apply, step_of_not_live (x := (s, k)) hget hlive]
          exact hstep

theorem DrainsTo.of_iterate {t : S} {n : ℕ} (h : c.DrainsTo (c.step^[n] x) t) :
    c.DrainsTo x t := by
  obtain ⟨n', k, hstep, hpending⟩ := h
  refine ⟨n' + n, k, ?_, hpending⟩
  rw [Function.iterate_add_apply, hstep]

/-- A delivery takes steps of the machine and leaves its token in the queue. -/
structure Refines (c : Consumer S M) (next : V → T → V × Option T) (view : S → V)
    (token : M → T) : Prop where
  delivers : ∀ k m s, c.live m = true → ∃ n events rest,
    c.queue (c.handle k m s) = c.queue s ++ events ∧
      (advance next)^[n + 1] (view s, some (token m)) = (view (c.handle k m s), rest) ∧
      (events.filter c.live).map token = rest.toList

/-- A machine's state that shows the consumer's: its view, and its token the only
live message. -/
structure Tracks (c : Consumer S M) (view : S → V) (token : M → T) (x : S × ℕ)
    (y : V × Option T) : Prop where
  view : y.1 = view x.1
  token : (c.pending x).map token = y.2.toList

namespace Refines

variable {next : V → T → V × Option T} {view : S → V} {token : M → T} {y : V × Option T}

/-- Delivering a live message takes steps of the machine. -/
theorem deliver (h : c.Refines next view token) (htracks : c.Tracks view token x y)
    (hget : (c.queue x.1)[x.2]? = some m) (hlive : c.live m = true) :
    ∃ n, c.Tracks view token (c.step x) ((advance next)^[n + 1] y) := by
  obtain ⟨v, rest⟩ := y
  obtain ⟨rfl, htoken⟩ := htracks
  rw [pending_of_live hget hlive] at htoken
  obtain ⟨rfl, hnone⟩ : rest = some (token m) ∧ c.pending (x.1, x.2 + 1) = [] := by
    cases rest with
    | none => cases htoken
    | some t =>
        obtain ⟨hm, hrest⟩ := List.cons.inj htoken
        exact ⟨congrArg some hm.symm, List.map_eq_nil_iff.1 hrest⟩
  obtain ⟨n, events, rest, hqueue, hsteps, hevents⟩ := h.delivers x.2 m x.1 hlive
  refine ⟨n, ?_⟩
  rw [step_of_live hget hlive, hsteps]
  have hlt : x.2 + 1 ≤ (c.queue x.1).length := (List.getElem?_eq_some_iff.1 hget).1
  have hpending : c.pending (c.handle x.2 m x.1, x.2 + 1) =
      c.pending (x.1, x.2 + 1) ++ events.filter c.live := by
    simp [pending, hqueue, List.drop_append_of_le_length hlt]
  constructor
  · rfl
  · rw [hpending, hnone, List.nil_append]
    exact hevents

/-- A step of the consumer takes any number of steps of the machine. -/
theorem step (h : c.Refines next view token) (htracks : c.Tracks view token x y) :
    ∃ n, c.Tracks view token (c.step x) ((advance next)^[n] y) := by
  cases hget : (c.queue x.1)[x.2]? with
  | none =>
      refine ⟨0, ?_⟩
      have hstay : c.step x = x := by simp [Consumer.step, hget]
      rwa [hstay]
  | some m =>
      cases hlive : c.live m with
      | true =>
          obtain ⟨n, hn⟩ := h.deliver htracks hget hlive
          exact ⟨n + 1, hn⟩
      | false =>
          refine ⟨0, ?_⟩
          rw [step_of_not_live hget hlive]
          constructor
          · exact htracks.view
          · rw [← pending_of_not_live hget hlive]
            exact htracks.token

theorem run (h : c.Refines next view token) (htracks : c.Tracks view token x y) (n : ℕ) :
    ∃ j, c.Tracks view token (c.step^[n] x) ((advance next)^[j] y) := by
  induction n with
  | zero => exact ⟨0, htracks⟩
  | succ n ih =>
      obtain ⟨j, hj⟩ := ih
      obtain ⟨i, hi⟩ := h.step hj
      refine ⟨i + j, ?_⟩
      rwa [Function.iterate_succ_apply', Function.iterate_add_apply]

/-- A consumer drains its queue when the machine comes to rest. -/
theorem drainsTo_of_rests (h : c.Refines next view token) (htracks : c.Tracks view token x y)
    {n : ℕ} {v : V} (hrests : (advance next)^[n] y = (v, none)) :
    ∃ t, c.DrainsTo x t ∧ view t = v := by
  induction n using Nat.strongRecOn generalizing x y with
  | _ n ih =>
      obtain ⟨u, rest⟩ := y
      cases rest with
      | none =>
          rw [advance_iterate_none] at hrests
          refine ⟨x.1, ⟨0, x.2, rfl, ?_⟩, ?_⟩
          · exact List.map_eq_nil_iff.1 htracks.token
          · rw [← htracks.view]
            exact congrArg Prod.fst hrests
      | some t =>
          have htoken := htracks.token
          obtain ⟨m, ms, hpending⟩ : ∃ m ms, c.pending x = m :: ms := by
            apply List.exists_cons_of_ne_nil
            intro hnil
            rw [hnil] at htoken
            cases htoken
          obtain ⟨i, k, hskip, hsame, hget, hlive⟩ := exists_skip hpending
          have hthere : c.Tracks view token (x.1, k) (u, some t) := by
            constructor
            · exact htracks.view
            · rw [hsame]
              exact htoken
          obtain ⟨j, hj⟩ := h.deliver hthere hget hlive
          have hdrains : ∃ t', c.DrainsTo (c.step (x.1, k)) t' ∧ view t' = v := by
            rcases Nat.lt_or_ge n (j + 1) with hlt | hle
            · have hdone := advance_iterate_of_le hrests (Nat.le_of_lt hlt)
              rw [hdone] at hj
              have hpos : 0 < n := by
                apply Nat.pos_of_ne_zero
                rintro rfl
                cases hrests
              exact ih 0 hpos hj rfl
            · refine ih (n - (j + 1)) (by omega) hj ?_
              rw [← Function.iterate_add_apply, Nat.sub_add_cancel hle]
              exact hrests
          obtain ⟨t', ht', hview⟩ := hdrains
          refine ⟨t', ?_, hview⟩
          rw [← hskip, ← Function.iterate_succ_apply' c.step] at ht'
          exact ht'.of_iterate

/-- When its queue is drained the machine rests with its view. -/
theorem rests_of_drainsTo (h : c.Refines next view token) (htracks : c.Tracks view token x y)
    {t : S} (hdrains : c.DrainsTo x t) : ∃ n, (advance next)^[n] y = (view t, none) := by
  obtain ⟨n, k, hstep, hpending⟩ := hdrains
  obtain ⟨j, hj⟩ := h.run htracks n
  refine ⟨j, Prod.ext ?_ ?_⟩
  · rw [hj.view, hstep]
  · have htoken := hj.token
    rw [hstep, hpending] at htoken
    exact Option.toList_eq_nil_iff.1 htoken.symm

/-- Two consumers that refine one machine agree. -/
theorem agree {c' : Consumer S' M'} {view' : S' → V} {token' : M' → T} {x' : S' × ℕ}
    (h : c.Refines next view token) (h' : c'.Refines next view' token')
    (htracks : c.Tracks view token x y) (htracks' : c'.Tracks view' token' x' y) :
    ((∃ t, c.DrainsTo x t) ↔ ∃ t, c'.DrainsTo x' t) ∧
      ∀ t t', c.DrainsTo x t → c'.DrainsTo x' t' → view t = view' t' := by
  refine ⟨⟨?_, ?_⟩, ?_⟩
  · rintro ⟨t, ht⟩
    obtain ⟨n, hn⟩ := h.rests_of_drainsTo htracks ht
    obtain ⟨t', ht', -⟩ := h'.drainsTo_of_rests htracks' hn
    exact ⟨t', ht'⟩
  · rintro ⟨t', ht'⟩
    obtain ⟨n, hn⟩ := h'.rests_of_drainsTo htracks' ht'
    obtain ⟨t, ht, -⟩ := h.drainsTo_of_rests htracks hn
    exact ⟨t, ht⟩
  · intro t t' ht ht'
    obtain ⟨n, hn⟩ := h.rests_of_drainsTo htracks ht
    obtain ⟨n', hn'⟩ := h'.rests_of_drainsTo htracks' ht'
    exact advance_iterate_unique hn hn'

end Refines

end Consumer

end Effect
