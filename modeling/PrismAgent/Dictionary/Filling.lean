import PrismAgent.Dictionary.Basic
import Mathlib.Data.List.Induction

/-!
# Filling a dictionary key by key

Every key gets a value that may depend on the entries made before it. What stands under a key
in the end was computed from the keys in front of the key's last occurrence.
-/

namespace Dict

variable {κ ν : Type*} [DecidableEq κ]

/-- Enter the keys in order. -/
def fill (value : Dict κ ν → κ → ν) (keys : List κ) (d : Dict κ ν) : Dict κ ν :=
  keys.foldl (fun d key => insert d key (value d key)) d

/-- The keys in front of the last occurrence of `key`. -/
def beforeLast (key : κ) : List κ → List κ
  | [] => []
  | k :: keys => if key ∈ keys then k :: beforeLast key keys else []

section BeforeLast

variable {key k : κ} {keys : List κ}

theorem beforeLast_of_notMem (h : key ∉ keys) : beforeLast key keys = [] := by
  cases keys with
  | nil => rfl
  | cons k keys => rw [beforeLast, if_neg fun hmem => h (List.mem_cons_of_mem k hmem)]

theorem beforeLast_append_self : beforeLast key (keys ++ [key]) = keys := by
  induction keys with
  | nil => simp [beforeLast]
  | cons k keys ih => rw [List.cons_append, beforeLast, if_pos (by simp), ih]

theorem beforeLast_append_of_ne (h : k ≠ key) :
    beforeLast key (keys ++ [k]) = beforeLast key keys := by
  induction keys with
  | nil => simp [beforeLast]
  | cons j keys ih =>
      rw [List.cons_append, beforeLast, beforeLast, ih]
      simp [Ne.symm h]

theorem mem_of_mem_beforeLast (h : k ∈ beforeLast key keys) : k ∈ keys := by
  induction keys with
  | nil => cases h
  | cons j keys ih =>
      rw [beforeLast] at h
      split at h
      · rcases List.mem_cons.1 h with rfl | h
        · exact List.mem_cons_self
        · exact List.mem_cons_of_mem j (ih h)
      · cases h

/-- Keys that are left out elsewhere do not change what stands in front of a key. -/
theorem beforeLast_filter {p : κ → Bool} (h : p key = true) :
    beforeLast key (keys.filter p) = (beforeLast key keys).filter p := by
  induction keys with
  | nil => rfl
  | cons k keys ih =>
      have hmem : key ∈ keys.filter p ↔ key ∈ keys := by simp [List.mem_filter, h]
      rw [List.filter_cons]
      by_cases hkey : key ∈ keys
      · rw [beforeLast, if_pos hkey, List.filter_cons]
        split
        · rw [beforeLast, if_pos (hmem.2 hkey), ih]
        · rw [ih]
      · rw [beforeLast, if_neg hkey]
        split
        · rw [beforeLast, if_neg fun hin => hkey (hmem.1 hin)]
          rfl
        · exact beforeLast_of_notMem fun hin => hkey (hmem.1 hin)

end BeforeLast

theorem fill_append (value : Dict κ ν → κ → ν) (keys : List κ) (key : κ) (d : Dict κ ν) :
    fill value (keys ++ [key]) d =
      insert (fill value keys d) key (value (fill value keys d) key) := by
  unfold fill
  rw [List.foldl_append]
  rfl

/-- What a key holds in the end. -/
theorem lookup_fill (value : Dict κ ν → κ → ν) (keys : List κ) (d : Dict κ ν) (key : κ) :
    (fill value keys d).lookup key =
      if key ∈ keys then some (value (fill value (beforeLast key keys) d) key)
      else d.lookup key := by
  induction keys using List.reverseRecOn with
  | nil => rfl
  | append_singleton keys k ih =>
      rw [fill_append]
      by_cases h : key = k
      · subst h
        rw [lookup_insert_self, beforeLast_append_self, if_pos (by simp)]
      · rw [lookup_insert_of_ne h, ih, beforeLast_append_of_ne (Ne.symm h)]
        simp [h]

/-- Keeping the entries whose keys pass a test. -/
theorem lookup_filter (p : κ → Bool) (d : Dict κ ν) (key : κ) :
    (d.filter fun entry => p entry.1).lookup key = if p key then d.lookup key else none := by
  induction d with
  | nil => cases p key <;> rfl
  | cons entry d ih =>
      obtain ⟨k, value⟩ := entry
      rw [List.lookup_cons]
      by_cases hkey : key = k
      · subst hkey
        cases hp : p key with
        | true => simp [hp]
        | false =>
            rw [List.filter_cons_of_neg (by simpa using hp), ih, hp]
            rfl
      · have hne : (key == k) = false := beq_eq_false_iff_ne.2 hkey
        rw [hne]
        cases hp : p k with
        | true => rw [List.filter_cons_of_pos (by simpa using hp), List.lookup_cons, hne, ih]
        | false => rw [List.filter_cons_of_neg (by simpa using hp), ih]

/-- A dictionary comprehension looks up what it computes. -/
theorem lookup_filterMap (keys : List κ) (f : κ → Option ν) (key : κ) :
    (keys.filterMap fun k => (f k).map fun value => (k, value)).lookup key =
      if key ∈ keys then f key else none := by
  induction keys with
  | nil => rfl
  | cons first keys ih =>
      by_cases hkey : key = first
      · subst hkey
        rw [if_pos List.mem_cons_self]
        cases hf : f key with
        | none =>
            rw [List.filterMap_cons_none (by rw [hf]; rfl), ih, hf]
            split <;> rfl
        | some value => rw [List.filterMap_cons_some (by rw [hf]; rfl), List.lookup_cons_self]
      · have hmem : key ∈ first :: keys ↔ key ∈ keys := by simp [hkey]
        rw [if_congr hmem rfl rfl, ← ih]
        cases hf : f first with
        | none => rw [List.filterMap_cons_none (by rw [hf]; rfl)]
        | some value =>
            rw [List.filterMap_cons_some (by rw [hf]; rfl), List.lookup_cons,
              beq_eq_false_iff_ne.2 hkey]

theorem lookup_erase_self (d : Dict κ ν) (key : κ) : (erase d key).lookup key = none :=
  (lookup_filter (fun k => decide (k ≠ key)) d key).trans (by simp)

end Dict
