import Mathlib.Data.List.Basic

/-!
# Reachability in dependency order

A dependency system gives each item a list of prerequisites. An item is
reachable in dependency order when all its prerequisites are: the reachable
items are the least set closed under the rules, so an item on a cycle, or one
that waits for an item without a rule, is never reached.

`exhausted_iff` is the fact a scheduler relies on: a set of finished items that
only grew in dependency order and that no rule can extend is exactly the set of
reachable items.
-/

namespace Dependency

variable {ι : Type*}

/-- `Reachable rule i`: some rule for `i` has only reachable prerequisites. -/
inductive Reachable (rule : ι → List ι → Prop) : ι → Prop
  | intro {i : ι} {ds : List ι} (hrule : rule i ds)
      (hds : ∀ d ∈ ds, Reachable rule d) : Reachable rule i

/-- No rule adds an item to `s`. -/
def Closed (rule : ι → List ι → Prop) (s : ι → Prop) : Prop :=
  ∀ i ds, rule i ds → (∀ d ∈ ds, s d) → s i

/-- The reachable items are the least closed set. -/
theorem Reachable.mem_of_closed {rule : ι → List ι → Prop} {s : ι → Prop}
    (hs : Closed rule s) {i : ι} (h : Reachable rule i) : s i := by
  induction h with
  | intro hrule _ ih => exact hs _ _ hrule ih

/-- A closed set that contains only reachable items is the set of reachable
items. -/
theorem exhausted_iff {rule : ι → List ι → Prop} {s : ι → Prop}
    (hsound : ∀ i, s i → Reachable rule i) (hclosed : Closed rule s) (i : ι) :
    s i ↔ Reachable rule i :=
  ⟨hsound i, fun h => h.mem_of_closed hclosed⟩

end Dependency
