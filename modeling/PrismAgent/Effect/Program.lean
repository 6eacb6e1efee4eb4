import Mathlib.Tactic.TypeStar

/-!
# Programs over an effect signature

`Program E R ε α` is a computation that calls effects `e : E`, each answered by
a value of `R e` or by an exception, and that returns a value or raises. What the
effects do is left open: the same program is run against a state, with injected
faults, or interleaved with others.
-/

namespace Effect

variable {E ε α β : Type*} {R : E → Type*}

inductive Program (E : Type*) (R : E → Type*) (ε α : Type*)
  | pure (a : α)
  | raise (x : ε)
  | call (e : E) (k : Except ε (R e) → Program E R ε α)

namespace Program

def bind : Program E R ε α → (α → Program E R ε β) → Program E R ε β
  | .pure a, f => f a
  | .raise x, _ => .raise x
  | .call e k, f => .call e fun r => (k r).bind f

instance : Monad (Program E R ε) where
  pure := .pure
  bind := .bind

/-- Call one effect; an exceptional answer is raised. -/
def perform (e : E) : Program E R ε (R e) :=
  .call e fun
    | .ok a => .pure a
    | .error x => .raise x

/-- Run `p` and hand out its result or its exception. -/
def attempt : Program E R ε α → Program E R ε (Except ε α)
  | .pure a => .pure (.ok a)
  | .raise x => .pure (.error x)
  | .call e k => .call e fun r => (k r).attempt

/-- Run `p`; if it raises, continue with the handler. -/
def tryCatch (p : Program E R ε α) (handler : ε → Program E R ε α) : Program E R ε α :=
  p.attempt.bind fun
    | .ok a => .pure a
    | .error x => handler x

end Program

end Effect
