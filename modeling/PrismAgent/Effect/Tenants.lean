import Mathlib.Data.List.Basic
import Mathlib.Tactic.TypeStar

/-!
# Tenants of one state

Calls on one state, each issued on behalf of a tenant. What a tenant sees of the state
is the same as if only its own calls had taken place, when its calls respect a relation
between states and the calls of the others stay within it.
-/

namespace Effect

variable {T C S : Type*}

/-- The state after calls that each tenant has issued. -/
def replay (next : C → S → S) (s : S) (calls : List (T × C)) : S :=
  calls.foldl (fun s call => next call.2 s) s

/-- The calls that one tenant has issued. -/
def ownCalls [DecidableEq T] (tenant : T) (calls : List (T × C)) : List (T × C) :=
  calls.filter fun call => call.1 = tenant

@[simp] theorem replay_nil (next : C → S → S) (s : S) :
    replay next s ([] : List (T × C)) = s := rfl

theorem replay_append (next : C → S → S) (s : S) (calls calls' : List (T × C)) :
    replay next s (calls ++ calls') = replay next (replay next s calls) calls' :=
  List.foldl_append

theorem replay_concat (next : C → S → S) (s : S) (calls : List (T × C)) (call : T × C) :
    replay next s (calls ++ [call]) = next call.2 (replay next s calls) :=
  replay_append next s calls [call]

/-- What holds at every call of a list, with the calls in front of it, one call after the
other. -/
theorem forall_split_cons_iff {P : List T → T → Prop} {call : T} {calls : List T} :
    (∀ before c after, call :: calls = before ++ c :: after → P before c) ↔
      P [] call ∧ ∀ before c after, calls = before ++ c :: after → P (call :: before) c := by
  constructor
  · exact fun h => ⟨h [] call calls rfl,
      fun before c after hl => h (call :: before) c after (congrArg (call :: ·) hl)⟩
  · rintro ⟨hfirst, hrest⟩ before c after hl
    rcases List.cons_eq_append_iff.1 hl with ⟨rfl, hl⟩ | ⟨before, rfl, hl⟩
    · obtain ⟨rfl, -⟩ := List.cons.inj hl
      exact hfirst
    · exact hrest before c after (List.cons.inj hl).2

theorem forall_split_nil_iff {P : List T → T → Prop} :
    (∀ before c after, [] = before ++ c :: after → P before c) ↔ True :=
  iff_true_intro fun before c after hl => absurd hl.symm (by simp)

/-- The calls that `Issues` allows keep the invariant; those of `tenant` keep the relation
between two states, and those of the others keep it when only the first state takes them. -/
structure Unwinding (next : C → S → S) (Issues : T → C → Prop) (tenant : T)
    (Good : S → Prop) (Agrees : S → S → Prop) : Prop where
  good : ∀ t call s, Issues t call → Good s → Good (next call s)
  own : ∀ call s s', Issues tenant call → Good s → Good s' → Agrees s s' →
    Agrees (next call s) (next call s')
  other : ∀ t call s s', t ≠ tenant → Issues t call → Good s → Agrees s s' →
    Agrees (next call s) s'

namespace Unwinding

variable [DecidableEq T] {next : C → S → S} {Issues : T → C → Prop} {tenant : T}
  {Good : S → Prop} {Agrees : S → S → Prop} {s s' : S} {calls : List (T × C)}

/-- All calls and the tenant's own calls end in states that agree for it. -/
theorem replay_agrees (h : Unwinding next Issues tenant Good Agrees) (hs : Good s)
    (hs' : Good s') (hagree : Agrees s s') (hcalls : ∀ call ∈ calls, Issues call.1 call.2) :
    Good (replay next s calls) ∧ Good (replay next s' (ownCalls tenant calls)) ∧
      Agrees (replay next s calls) (replay next s' (ownCalls tenant calls)) := by
  induction calls generalizing s s' with
  | nil => exact ⟨hs, hs', hagree⟩
  | cons call calls ih =>
      have hcall := hcalls call List.mem_cons_self
      have hrest := fun c hc => hcalls c (List.mem_cons_of_mem _ hc)
      have hgood := h.good _ _ s hcall hs
      by_cases htenant : call.1 = tenant
      · have hown : ownCalls tenant (call :: calls) = call :: ownCalls tenant calls :=
          List.filter_cons_of_pos (by simpa using htenant)
        rw [hown]
        exact ih hgood (h.good _ _ s' hcall hs')
          (h.own _ s s' (htenant ▸ hcall) hs hs' hagree) hrest
      · have hown : ownCalls tenant (call :: calls) = ownCalls tenant calls :=
          List.filter_cons_of_neg (by simpa using htenant)
        rw [hown]
        exact ih hgood hs' (h.other _ _ s s' htenant hcall hs hagree) hrest

end Unwinding

end Effect
