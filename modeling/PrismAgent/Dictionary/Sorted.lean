import Mathlib.Data.List.Sort
import PrismAgent.Dictionary.Basic

/-!
# Dictionaries in the order of their keys

Sorting the entries by their keys moves them and nothing else: a key has the value that it had,
and a function of the values may be applied before or after.
-/

namespace Dict

variable {κ ν ω : Type*} [LinearOrder κ]

/-- The entries in the order of their keys. -/
def byKey (d : Dict κ ν) : Dict κ ν := d.insertionSort fun a b => a.1 ≤ b.1

theorem byKey_perm (d : Dict κ ν) : (byKey d).Perm d := List.perm_insertionSort _ d

@[simp] theorem mem_byKey {d : Dict κ ν} {entry : κ × ν} : entry ∈ byKey d ↔ entry ∈ d :=
  (byKey_perm d).mem_iff

theorem keys_byKey_nodup {d : Dict κ ν} : (keys (byKey d)).Nodup ↔ (keys d).Nodup :=
  ((byKey_perm d).map Prod.fst).nodup_iff

/-- A key keeps its value. -/
theorem lookup_byKey {d : Dict κ ν} (h : (keys d).Nodup) (key : κ) :
    (byKey d).lookup key = d.lookup key := by
  ext value
  rw [lookup_eq_some_iff h, lookup_eq_some_iff (keys_byKey_nodup.2 h), mem_byKey]

theorem byKey_pairwise (d : Dict κ ν) : (byKey d).Pairwise fun a b => a.1 ≤ b.1 := by
  have htotal : Std.Total fun a b : κ × ν => a.1 ≤ b.1 := ⟨fun a b => le_total a.1 b.1⟩
  have htrans : IsTrans (κ × ν) fun a b => a.1 ≤ b.1 := ⟨fun _ _ _ => le_trans⟩
  exact List.pairwise_insertionSort _ d

@[simp] theorem byKey_byKey (d : Dict κ ν) : byKey (byKey d) = byKey d :=
  List.Pairwise.insertionSort_eq (byKey_pairwise d)

/-- The values are mapped before or after. -/
theorem byKey_map (f : ν → ω) (d : Dict κ ν) :
    byKey (d.map fun entry => (entry.1, f entry.2)) =
      (byKey d).map fun entry => (entry.1, f entry.2) := by
  have hmap := @List.map_insertionSort (κ × ν) (κ × ω) (fun a b => a.1 ≤ b.1)
    (fun a b => a.1 ≤ b.1) _ _ (fun entry => (entry.1, f entry.2)) d fun _ _ _ _ => Iff.rfl
  exact hmap.symm

end Dict
