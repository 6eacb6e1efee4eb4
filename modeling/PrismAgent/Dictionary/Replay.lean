import Mathlib.Tactic.TypeStar

/-!
# Replaying a log into a table

A log is replayed record by record into a state, and `table` reads the value of a key
off the state. `Enters` says that a record writes the entry it holds and leaves the
other keys. A key then has the value on which the records that hold it agree, and a
value only if some record or the state before holds it.
-/

namespace Replay

variable {S ρ κ ν : Type*} {step : S → ρ → S} {table : S → κ → Option ν}
  {entry : ρ → Option (κ × ν)}

/-- Every record writes its entry, and nothing else, into the table. -/
structure Enters (step : S → ρ → S) (table : S → κ → Option ν) (entry : ρ → Option (κ × ν)) :
    Prop where
  written : ∀ s r k v, entry r = some (k, v) → table (step s r) k = some v
  kept : ∀ s r k, (∀ v, entry r ≠ some (k, v)) → table (step s r) k = table s k

variable {s : S} {records : List ρ} {k : κ} {v : ν}

/-- A key that is in the table was there before or is that of a record. -/
theorem Enters.mem_of_foldl (h : Enters step table entry)
    (hk : table (records.foldl step s) k = some v) :
    table s k = some v ∨ ∃ r ∈ records, entry r = some (k, v) := by
  induction records generalizing s with
  | nil => exact .inl hk
  | cons r records ih =>
      rcases ih hk with hstep | ⟨r', hr', hentry⟩
      · by_cases hwrites : ∃ v', entry r = some (k, v')
        · obtain ⟨v', hv'⟩ := hwrites
          obtain rfl : v' = v := Option.some.inj ((h.written s r k v' hv').symm.trans hstep)
          exact .inr ⟨r, List.mem_cons_self, hv'⟩
        · refine .inl ((h.kept s r k fun v' hv' => hwrites ⟨v', hv'⟩).symm.trans hstep)
      · exact .inr ⟨r', List.mem_cons_of_mem _ hr', hentry⟩

/-- A key has the value that all of its records hold. -/
theorem Enters.foldl_eq (h : Enters step table entry)
    (hagree : ∀ r ∈ records, ∀ v', entry r = some (k, v') → v' = v)
    (hv : table s k = some v ∨ ∃ r ∈ records, entry r = some (k, v)) :
    table (records.foldl step s) k = some v := by
  induction records generalizing s with
  | nil => exact hv.resolve_right fun ⟨_, hr, _⟩ => by cases hr
  | cons r records ih =>
      refine ih (fun r' hr' => hagree r' (List.mem_cons_of_mem _ hr')) ?_
      by_cases hwrites : ∃ v', entry r = some (k, v')
      · obtain ⟨v', hv'⟩ := hwrites
        rw [hagree r List.mem_cons_self v' hv'] at hv'
        exact .inl (h.written s r k v hv')
      · have hkept := h.kept s r k fun v' hv' => hwrites ⟨v', hv'⟩
        rcases hv with hold | ⟨r', hr', hentry⟩
        · exact .inl (hkept.trans hold)
        · rcases List.mem_cons.1 hr' with rfl | hr'
          · exact absurd ⟨v, hentry⟩ hwrites
          · exact .inr ⟨r', hr', hentry⟩

/-- A table that starts without a key ends with the value of the records that hold it. -/
theorem Enters.foldl_eq_of_iff (h : Enters step table entry) (hs : table s k = none)
    {value : Option ν} (hvalue : ∀ v, value = some v ↔ ∃ r ∈ records, entry r = some (k, v)) :
    table (records.foldl step s) k = value := by
  cases hfinal : value with
  | none =>
      refine Option.eq_none_iff_forall_ne_some.2 fun v hv => ?_
      rcases h.mem_of_foldl hv with hold | hrecord
      · cases hs.symm.trans hold
      · cases hfinal.symm.trans ((hvalue v).2 hrecord)
  | some v =>
      refine h.foldl_eq (fun r hr v' hentry => ?_) (.inr ((hvalue v).1 hfinal))
      exact Option.some.inj (((hvalue v').2 ⟨r, hr, hentry⟩).symm.trans hfinal)

end Replay
