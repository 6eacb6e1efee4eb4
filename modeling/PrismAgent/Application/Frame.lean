import PrismAgent.Application.SubAgentCoordinator
import PrismAgent.Effect.Calls

/-!
# What a call leaves unchanged

Every call writes at most one part of the world. `Call.writes` names it,
`p.Writes parts` lists the parts that a program may write, and over the in-memory
store the lemmas say that the other parts stay as they are.
-/

namespace PrismAgent

open Effect

/-- The parts of a world over the in-memory store. -/
inductive Part
  | plans
  | taskGraphs
  | subAgentResults
  | contextSnapshots
  | actionResults
  | traces
  | idempotencyKeys
  | queue
  | syncCalls
  | executions
  deriving DecidableEq, Repr

/-- The part that a call may write. -/
def Call.writes : Call → Option Part
  | .savePlan _ | .updatePlan _ => some .plans
  | .saveTaskGraph _ | .claimReadyNodes _ _ | .advanceTaskGraph _ _ _ _ => some .taskGraphs
  | .saveSubAgentResult _ _ _ => some .subAgentResults
  | .saveContextSnapshot _ => some .contextSnapshots
  | .saveActionResult _ => some .actionResults
  | .appendTraceEvent _ => some .traces
  | .recordIdempotencyKey _ => some .idempotencyKeys
  | .enqueue _ => some .queue
  | .sync _ => some .syncCalls
  | .executeOne _ _ _ => some .executions
  | _ => none

/-- Two worlds agree on a part. -/
def Part.Same (w w' : World MemoryStateStore) : Part → Prop
  | .plans => w'.store.plans = w.store.plans ∧ w'.planWrites = w.planWrites
  | .taskGraphs => w'.store.taskGraphs = w.store.taskGraphs
  | .subAgentResults => w'.store.subAgentResults = w.store.subAgentResults
  | .contextSnapshots => w'.store.contextSnapshots = w.store.contextSnapshots
  | .actionResults => w'.store.actionResults = w.store.actionResults
  | .traces => w'.store.traces = w.store.traces
  | .idempotencyKeys => w'.store.idempotencyKeys = w.store.idempotencyKeys
  | .queue => w'.queue = w.queue
  | .syncCalls => w'.syncCalls = w.syncCalls
  | .executions => w'.executions = w.executions

/-- The call writes nothing outside `parts`. -/
def Call.writesIn (call : Call) (parts : List Part) : Bool :=
  call.writes.all fun part => part ∈ parts

theorem Call.writes_ne {call : Call} {parts : List Part} {part : Part}
    (h : call.writesIn parts = true) (hpart : part ∉ parts) : call.writes ≠ some part := by
  intro heq
  unfold Call.writesIn at h
  rw [heq] at h
  exact hpart (of_decide_eq_true h)

/-- The program writes nothing outside `parts`. -/
def Writes {α : Type} (parts : List Part) (p : App α) : Prop :=
  p.OnlyCalls fun call => call.writesIn parts = true

theorem mayReturn_liftExcept {α : Type} {r : Except Exc α} {a : α} :
    Program.MayReturn a (liftExcept r) ↔ r = .ok a := by
  cases r with
  | error x => simp [liftExcept]
  | ok b => simp [liftExcept, Program.MayReturn]

theorem respects_liftExcept {α : Type} {C : Contract Call Call.Answer Exc} (r : Except Exc α) :
    (liftExcept r).Respects C fun a => r = .ok a := by
  cases r with
  | error x => trivial
  | ok a => rfl

/-- A program that begins by reading a registry or raising. -/
theorem wp_liftExcept {σ α β : Type} {step : StepRelation Call Call.Answer Exc (World σ)}
    {r : Except Exc α} {f : α → App β} {Q : Except Exc β → World σ → Prop} {w : World σ}
    (hraise : ∀ x, Q (.error x) w) (hreturn : ∀ a, r = .ok a → (f a).wp step Q w) :
    (liftExcept r >>= f).wp step Q w := by
  cases r with
  | error x => exact hraise x
  | ok a => exact hreturn a rfl

namespace Writes

variable {α β : Type} {parts parts' : List Part}

theorem perform {call : Call} (h : call.writesIn parts = true) :
    Writes parts (PrismAgent.perform call) :=
  (Program.onlyCalls_perform call).2 h

theorem pure (a : α) : Writes parts (Pure.pure a : App α) := trivial

theorem raise (x : Exc) : Writes parts (.raise x : App α) := trivial

theorem liftExcept (r : Except Exc α) : Writes parts (PrismAgent.liftExcept r) := by
  cases r <;> trivial

theorem bind {p : App α} {f : α → App β} (hp : Writes parts p)
    (hf : ∀ a, Writes parts (f a)) : Writes parts (p >>= f) :=
  Program.OnlyCalls.bind hp hf

theorem attempt {p : App α} (hp : Writes parts p) :
    Writes parts (Program.attempt p : App (Except Exc α)) :=
  Program.OnlyCalls.attempt hp

theorem tryCatch {p : App α} {handler : Exc → App α} (hp : Writes parts p)
    (hhandler : ∀ x, Writes parts (handler x)) : Writes parts (Program.tryCatch p handler) :=
  Program.OnlyCalls.tryCatch hp hhandler

theorem mono {p : App α} (hp : Writes parts p) (h : ∀ part ∈ parts, part ∈ parts') :
    Writes parts' p := by
  refine Program.OnlyCalls.mono hp fun call hcall => ?_
  unfold Call.writesIn at hcall ⊢
  cases hwrites : call.writes with
  | none => rfl
  | some part =>
      rw [hwrites] at hcall
      simp only [Option.all_some, decide_eq_true_eq] at hcall ⊢
      exact h part hcall

theorem avoids {part : Part} {p : App α} (hp : Writes parts p) (hpart : part ∉ parts) :
    p.OnlyCalls fun call => call.writes ≠ some part :=
  Program.OnlyCalls.mono hp fun _ hcall => Call.writes_ne hcall hpart

end Writes

section Frame

variable (env : Env) {part : Part} {w : World MemoryStateStore}

/-- A call leaves every part but the one it writes. -/
theorem sem_same {call : Call} (h : call.writes ≠ some part) :
    part.Same w (env.sem call w).2 := by
  cases call with
  | claimReadyNodes workspaceId runId =>
      simp only [Env.sem, StateStore.claimReadyNodes, MemoryStateStore.claimReadyNodes]
      cases part with
      | taskGraphs => simp [Call.writes] at h
      | plans => split <;> exact ⟨rfl, rfl⟩
      | _ => split <;> rfl
  | advanceTaskGraph workspaceId runId nodeId status =>
      simp only [Env.sem, StateStore.advanceTaskGraph, MemoryStateStore.advanceTaskGraph]
      cases part with
      | taskGraphs => simp [Call.writes] at h
      | plans => split <;> exact ⟨rfl, rfl⟩
      | _ => split <;> rfl
  | _ =>
      cases part with
      | plans => first | exact ⟨rfl, rfl⟩ | simp [Call.writes] at h
      | _ => first | rfl | simp [Call.writes] at h

end Frame

end PrismAgent
