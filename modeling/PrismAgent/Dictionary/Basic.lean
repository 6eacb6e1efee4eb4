import Mathlib.Data.List.Dedup

/-!
# Insertion-ordered dictionaries

A dictionary is the list of its entries in insertion order. Inserting under a
key that is present replaces the value where it stands; a new key goes to the
end. Lookup is `List.lookup`.
-/

/-- Entries in insertion order, as a dictionary with distinct keys lists them. -/
abbrev Dict (κ ν : Type*) := List (κ × ν)

namespace Dict

variable {κ ν : Type*} [DecidableEq κ]

def keys (d : Dict κ ν) : List κ := d.map Prod.fst

def values (d : Dict κ ν) : List ν := d.map Prod.snd

/-- `d[key] = value`. -/
def insert : Dict κ ν → κ → ν → Dict κ ν
  | [], key, value => [(key, value)]
  | (k, v) :: d, key, value =>
      if k = key then (key, value) :: d else (k, v) :: insert d key value

/-- `d.pop(key, None)`, the remaining dictionary. -/
def erase (d : Dict κ ν) (key : κ) : Dict κ ν :=
  d.filter fun entry => entry.1 ≠ key

/-- `d | e`: the entries of `e` override those of `d`. -/
def merge (d e : Dict κ ν) : Dict κ ν :=
  e.foldl (fun acc entry => insert acc entry.1 entry.2) d

/-- A dictionary from key-value pairs; a later pair overrides an earlier one. -/
def ofPairs (pairs : List (κ × ν)) : Dict κ ν := merge [] pairs

@[simp] theorem lookup_insert_self (d : Dict κ ν) (key : κ) (value : ν) :
    (insert d key value).lookup key = some value := by
  induction d with
  | nil => simp [insert]
  | cons entry d ih =>
      unfold insert
      split
      · simp
      · next h =>
          rw [List.lookup_cons, beq_eq_false_iff_ne.2 (Ne.symm h)]
          exact ih

@[simp] theorem lookup_insert_of_ne {d : Dict κ ν} {key k : κ} {value : ν} (h : k ≠ key) :
    (insert d key value).lookup k = d.lookup k := by
  have hbeq : (k == key) = false := beq_eq_false_iff_ne.2 h
  induction d with
  | nil => simp [insert, List.lookup_cons, hbeq]
  | cons entry d ih =>
      unfold insert
      split
      · next heq => rw [List.lookup_cons, List.lookup_cons, heq, hbeq]
      · rw [List.lookup_cons, List.lookup_cons, ih]

theorem lookup_insert (d : Dict κ ν) (key k : κ) (value : ν) :
    (insert d key value).lookup k = if k = key then some value else d.lookup k := by
  split
  · next h => rw [h, lookup_insert_self]
  · next h => exact lookup_insert_of_ne h

/-- Setting a key to the value it has changes nothing. -/
theorem insert_of_lookup {d : Dict κ ν} {key : κ} {value : ν} (h : d.lookup key = some value) :
    insert d key value = d := by
  induction d with
  | nil => cases h
  | cons entry d ih =>
      obtain ⟨k, v⟩ := entry
      unfold insert
      by_cases hkey : k = key
      · subst hkey
        rw [List.lookup_cons_self] at h
        cases h
        rw [if_pos rfl]
      · rw [List.lookup_cons, beq_eq_false_iff_ne.2 (Ne.symm hkey)] at h
        rw [if_neg hkey, ih h]

@[simp] theorem merge_nil (d : Dict κ ν) : merge d [] = d := rfl

@[simp] theorem merge_cons (d e : Dict κ ν) (entry : κ × ν) :
    merge d (entry :: e) = merge (insert d entry.1 entry.2) e := rfl

/-- Merging changes only keys of the second dictionary. -/
theorem lookup_merge_of_notMem {d e : Dict κ ν} {key : κ} (h : key ∉ keys e) :
    (merge d e).lookup key = d.lookup key := by
  induction e generalizing d with
  | nil => rfl
  | cons entry e ih =>
      obtain ⟨hne, htail⟩ := not_or.1 fun hor => h (List.mem_cons.2 hor)
      rw [merge_cons, ih htail, lookup_insert_of_ne hne]

theorem lookup_merge {d e : Dict κ ν} (he : (keys e).Nodup) (key : κ) :
    (merge d e).lookup key = (e.lookup key).or (d.lookup key) := by
  induction e generalizing d with
  | nil => rfl
  | cons entry e ih =>
      obtain ⟨hnot, htail⟩ := List.nodup_cons.1 he
      rw [merge_cons, List.lookup_cons]
      by_cases h : key = entry.1
      · subst h
        rw [lookup_merge_of_notMem hnot, lookup_insert_self, beq_self_eq_true]
        rfl
      · rw [ih htail, lookup_insert_of_ne h, beq_eq_false_iff_ne.2 h]

@[simp] theorem lookup_erase_of_ne {d : Dict κ ν} {key k : κ} (h : k ≠ key) :
    (erase d key).lookup k = d.lookup k := by
  unfold erase
  induction d with
  | nil => rfl
  | cons entry d ih =>
      rw [List.filter_cons]
      split
      · rw [List.lookup_cons, List.lookup_cons, ih]
      next hkey =>
        have hne : (k == entry.1) = false := by
          rw [beq_eq_false_iff_ne]
          rintro rfl
          exact hkey (by simpa using h)
        rw [ih, List.lookup_cons, hne]

theorem mem_keys_erase {d : Dict κ ν} {key k : κ} :
    k ∈ keys (erase d key) ↔ k ∈ keys d ∧ k ≠ key := by
  unfold keys erase
  simp only [List.mem_map, List.mem_filter, decide_eq_true_eq]
  constructor
  · rintro ⟨entry, ⟨hmem, hne⟩, rfl⟩
    exact ⟨⟨entry, hmem, rfl⟩, hne⟩
  · rintro ⟨⟨entry, hmem, rfl⟩, hne⟩
    exact ⟨entry, ⟨hmem, hne⟩, rfl⟩

theorem isSome_lookup_iff {d : Dict κ ν} {key : κ} :
    (d.lookup key).isSome = true ↔ key ∈ keys d := by
  rw [← not_iff_not, Bool.not_eq_true, Option.isSome_eq_false_iff, Option.isNone_iff_eq_none,
    List.lookup_eq_none_iff]
  simp only [keys, List.mem_map, not_exists, not_and, bne_iff_ne, ne_eq]
  exact forall₂_congr fun entry _ => not_congr eq_comm

/-- Lookup after mapping the values. -/
theorem lookup_map {ω : Type*} (d : Dict κ ν) (f : ν → ω) (key : κ) :
    (d.map fun entry => (entry.1, f entry.2)).lookup key = (d.lookup key).map f := by
  induction d with
  | nil => rfl
  | cons entry d ih =>
      rw [List.map_cons, List.lookup_cons, List.lookup_cons, ih]
      cases key == entry.1 <;> rfl

/-- `d.setdefault(key, value)`. -/
def setDefault (d : Dict κ ν) (key : κ) (value : ν) : Dict κ ν :=
  if (d.lookup key).isSome then d else d ++ [(key, value)]

theorem lookup_append (d e : Dict κ ν) (key : κ) :
    (d ++ e).lookup key = (d.lookup key).or (e.lookup key) := by
  induction d with
  | nil => rfl
  | cons entry d ih =>
      rw [List.cons_append, List.lookup_cons, List.lookup_cons, ih]
      cases key == entry.1 <;> rfl

/-- Of several dictionaries one after the other, the first that has the key counts. -/
theorem lookup_flatMap_eq_some_iff {α : Type*} {f : α → Dict κ ν} {xs : List α} {key : κ}
    {value : ν} :
    List.lookup key (xs.flatMap f) = some value ↔
      ∃ before x after, xs = before ++ x :: after ∧ (∀ y ∈ before, (f y).lookup key = none) ∧
        (f x).lookup key = some value := by
  induction xs with
  | nil => simp
  | cons x xs ih =>
      rw [List.flatMap_cons, lookup_append]
      cases hx : (f x).lookup key with
      | some first =>
          rw [Option.some_or]
          constructor
          · intro h
            exact ⟨[], x, xs, rfl, List.forall_mem_nil _, hx.trans h⟩
          · rintro ⟨before, y, after, hsplit, hbefore, hy⟩
            cases before with
            | nil =>
                cases hsplit
                exact hx.symm.trans hy
            | cons z before =>
                cases hsplit
                cases hx.symm.trans (hbefore x List.mem_cons_self)
      | none =>
          rw [Option.none_or, ih]
          constructor
          · rintro ⟨before, y, after, rfl, hbefore, hy⟩
            exact ⟨x :: before, y, after, rfl, List.forall_mem_cons.2 ⟨hx, hbefore⟩, hy⟩
          · rintro ⟨before, y, after, hsplit, hbefore, hy⟩
            cases before with
            | nil =>
                cases hsplit
                cases hx.symm.trans hy
            | cons z before =>
                cases hsplit
                exact ⟨before, y, after, rfl, (List.forall_mem_cons.1 hbefore).2, hy⟩

/-- A default counts only where there is no value yet. -/
theorem lookup_setDefault (d : Dict κ ν) (key k : κ) (value : ν) :
    (setDefault d key value).lookup k =
      (d.lookup k).or (List.lookup k [(key, value)]) := by
  unfold setDefault
  split
  · next hsome =>
      cases hk : d.lookup k with
      | some v => rfl
      | none =>
          have hne : k ≠ key := by
            rintro rfl
            rw [hk] at hsome
            cases hsome
          simp [List.lookup_cons, beq_eq_false_iff_ne.2 hne]
  · exact lookup_append d _ k

/-- Defaults are filled in from the first entry on. -/
theorem lookup_foldl_setDefault (d e : Dict κ ν) (key : κ) :
    (e.foldl (fun acc entry => setDefault acc entry.1 entry.2) d).lookup key =
      (d.lookup key).or (e.lookup key) := by
  induction e generalizing d with
  | nil => simp
  | cons entry e ih =>
      rw [List.foldl_cons, ih, lookup_setDefault, Option.or_assoc, ← lookup_append]
      rfl

/-- A dictionary comprehension over keys. -/
theorem lookup_merge_filterMap (d : Dict κ ν) (keys : List κ) (f : κ → Option ν) (key : κ) :
    (merge d (keys.filterMap fun k => (f k).map fun value => (k, value))).lookup key =
      if key ∈ keys then (f key).or (d.lookup key) else d.lookup key := by
  induction keys generalizing d with
  | nil => simp
  | cons first keys ih =>
      cases hf : f first with
      | none =>
          rw [List.filterMap_cons_none (by rw [hf]; rfl), ih]
          by_cases hkey : key = first
          · subst hkey
            simp [hf]
          · simp [hkey]
      | some value =>
          rw [List.filterMap_cons_some (by rw [hf]; rfl), merge_cons, ih]
          by_cases hkey : key = first
          · subst hkey
            simp [hf]
          · simp [hkey, lookup_insert_of_ne hkey]

theorem mem_keys_insert {d : Dict κ ν} {key k : κ} {value : ν} :
    k ∈ keys (insert d key value) ↔ k = key ∨ k ∈ keys d := by
  induction d with
  | nil => simp [insert, keys]
  | cons entry d ih =>
      unfold keys at ih ⊢
      unfold insert
      split
      next heq => simp [heq]
      next => simp only [List.map_cons, List.mem_cons, ih, or_left_comm]

theorem mem_of_mem_insert {d : Dict κ ν} {key : κ} {value : ν} {entry : κ × ν}
    (h : entry ∈ insert d key value) : entry = (key, value) ∨ entry ∈ d := by
  induction d with
  | nil => exact .inl (List.mem_singleton.1 h)
  | cons first d ih =>
      unfold insert at h
      split at h
      · exact (List.mem_cons.1 h).imp id (List.mem_cons_of_mem _)
      · rcases List.mem_cons.1 h with rfl | h
        · exact .inr List.mem_cons_self
        · exact (ih h).imp id (List.mem_cons_of_mem _)

theorem keys_insert_nodup {d : Dict κ ν} (h : (keys d).Nodup) (key : κ) (value : ν) :
    (keys (insert d key value)).Nodup := by
  induction d with
  | nil => simp [insert, keys]
  | cons entry d ih =>
      obtain ⟨hnot, htail⟩ := List.nodup_cons.1 h
      unfold insert
      split
      next heq =>
        subst heq
        exact List.nodup_cons.2 ⟨hnot, htail⟩
      next hne =>
        refine List.nodup_cons.2 ⟨fun hmem => ?_, ih htail⟩
        rcases mem_keys_insert.1 hmem with heq | hmem
        · exact hne heq
        · exact hnot hmem

/-- A dictionary made from pairs lists each key once. -/
theorem keys_ofPairs_nodup (pairs : List (κ × ν)) : (keys (ofPairs pairs)).Nodup := by
  have hmerge : ∀ (e d : Dict κ ν), (keys d).Nodup → (keys (merge d e)).Nodup := by
    intro e
    induction e with
    | nil => exact fun d hd => hd
    | cons entry e ih => exact fun d hd => ih _ (keys_insert_nodup hd _ _)
  exact hmerge pairs [] List.nodup_nil

theorem mem_keys_merge {d e : Dict κ ν} {key : κ} :
    key ∈ keys (merge d e) ↔ key ∈ keys d ∨ key ∈ keys e := by
  induction e generalizing d with
  | nil => simp [keys]
  | cons entry e ih =>
      have hcons : key ∈ keys (entry :: e) ↔ key = entry.1 ∨ key ∈ keys e := List.mem_cons
      rw [merge_cons, ih, mem_keys_insert, hcons, or_assoc, or_left_comm]

/-- A dictionary made from pairs has an entry for each of them exactly if their keys are
distinct. -/
theorem length_ofPairs_eq_iff (pairs : List (κ × ν)) :
    (ofPairs pairs).length = pairs.length ↔ (keys pairs).Nodup := by
  have hperm : (keys (ofPairs pairs)).Perm (keys pairs).dedup := by
    refine (List.perm_ext_iff_of_nodup (keys_ofPairs_nodup pairs) (List.nodup_dedup _)).2 ?_
    intro key
    rw [List.mem_dedup, ofPairs, mem_keys_merge]
    exact or_iff_right List.not_mem_nil
  have hlength : (ofPairs pairs).length = (keys pairs).dedup.length := by
    rw [← hperm.length_eq, keys, List.length_map]
  have hkeys : (keys pairs).length = pairs.length := List.length_map _
  rw [hlength, ← hkeys]
  constructor
  · intro h
    rw [← List.dedup_eq_self]
    exact (List.dedup_sublist _).eq_of_length h
  · intro h
    rw [List.dedup_eq_self.2 h]

theorem mem_of_mem_ofPairs {pairs : List (κ × ν)} {entry : κ × ν} (h : entry ∈ ofPairs pairs) :
    entry ∈ pairs := by
  have hmerge : ∀ (e d : Dict κ ν), entry ∈ merge d e → entry ∈ d ∨ entry ∈ e := by
    intro e
    induction e with
    | nil => exact fun d hd => .inl hd
    | cons first e ih =>
        intro d hd
        rcases ih _ hd with hd | he
        · rcases mem_of_mem_insert hd with rfl | hd
          · exact .inr List.mem_cons_self
          · exact .inl hd
        · exact .inr (List.mem_cons_of_mem _ he)
  exact (hmerge pairs [] h).resolve_left List.not_mem_nil

/-- Where each key is listed once, an entry is what its key looks up. -/
theorem lookup_eq_some_iff {d : Dict κ ν} (h : (keys d).Nodup) {key : κ} {value : ν} :
    d.lookup key = some value ↔ (key, value) ∈ d := by
  induction d with
  | nil => simp
  | cons entry d ih =>
      obtain ⟨hnot, htail⟩ := List.nodup_cons.1 h
      rw [List.lookup_cons, List.mem_cons]
      by_cases hkey : key = entry.1
      · subst hkey
        have habsent : (entry.1, value) ∉ d := fun hmem => hnot (List.mem_map.2 ⟨_, hmem, rfl⟩)
        simp [habsent, Prod.ext_iff, eq_comm]
      · rw [beq_eq_false_iff_ne.2 hkey]
        simp [ih htail, Prod.ext_iff, hkey]

theorem insert_of_notMem {d : Dict κ ν} {key : κ} (h : key ∉ keys d) (value : ν) :
    insert d key value = d ++ [(key, value)] := by
  induction d with
  | nil => rfl
  | cons entry d ih =>
      obtain ⟨hne, hnot⟩ := not_or.1 (List.mem_cons.not.1 h)
      rw [insert, if_neg (Ne.symm hne), ih hnot]
      rfl

/-- Pairs with distinct keys make the dictionary that lists them. -/
theorem ofPairs_eq_self {d : Dict κ ν} (h : (keys d).Nodup) : ofPairs d = d := by
  have hmerge : ∀ e d : Dict κ ν, (keys (d ++ e)).Nodup → merge d e = d ++ e := by
    intro e
    induction e with
    | nil => exact fun d _ => (List.append_nil d).symm
    | cons entry e ih =>
        intro d hd
        have hnot : entry.1 ∉ keys d := by
          rw [keys, List.map_append, List.map_cons] at hd
          exact fun hmem => List.disjoint_of_nodup_append hd hmem List.mem_cons_self
        rw [merge_cons, insert_of_notMem hnot, ih _ (by rwa [List.append_assoc]),
          List.append_assoc]
        rfl
  exact hmerge d [] h

end Dict
