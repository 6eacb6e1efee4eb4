import Mathlib.Algebra.Ring.Nat
import PrismAgent.JsonText.Values

/-!
# What the reader accepts

Every value that is read has distinct keys in every object, no integer beyond the limit, and
floats that `canon` has printed. Written again, such a value is read back unless a float is no
number and the style has no constant for it.
-/

namespace PrismAgent

namespace JsonText

/-- A float as the reader makes it. -/
def ReadFloat (canon : String → String) (repr : String) : Prop :=
  (specialFloats.lookup repr).isSome ∨
    ∃ token, token.all isNumberChar = true ∧ readNumber canon token = some (.float repr)

/-- What `canon` prints is a float that is no number, or reads as itself. -/
def Prints (canon : String → String) : Prop :=
  ∀ token repr, token.all isNumberChar = true → readNumber canon token = some (.float repr) →
    (specialFloats.lookup repr).isSome ∨ FloatText canon repr

section Proper

variable {F G H : String → Prop}

theorem properItems_iff {items : List Json} :
    ProperItems F items ↔ ∀ item ∈ items, Proper F item := by
  induction items with
  | nil => simp [ProperItems]
  | cons item items ih => rw [ProperItems, ih, List.forall_mem_cons]

theorem properFields_iff {fields : List (String × Json)} :
    ProperFields F fields ↔ ∀ field ∈ fields, Proper F field.2 := by
  induction fields with
  | nil => simp [ProperFields]
  | cons field fields ih =>
      obtain ⟨key, value⟩ := field
      rw [ProperFields, ih, List.forall_mem_cons]

mutual

/-- What holds of the floats on two grounds together. -/
theorem Proper.imp₂ (h : ∀ repr, F repr → G repr → H repr) :
    ∀ {v : Json}, Proper F v → Proper G v → Proper H v
  | .null, _, _ => trivial
  | .bool _, _, _ => trivial
  | .int _, hF, _ => hF
  | .float repr, hF, hG => h repr hF hG
  | .str _, _, _ => trivial
  | .arr _, hF, hG => ProperItems.imp₂ h hF hG
  | .obj _, hF, hG => ⟨hF.1, ProperFields.imp₂ h hF.2 hG.2⟩

theorem ProperItems.imp₂ (h : ∀ repr, F repr → G repr → H repr) :
    ∀ {items : List Json}, ProperItems F items → ProperItems G items → ProperItems H items
  | [], _, _ => trivial
  | _ :: _, hF, hG => ⟨Proper.imp₂ h hF.1 hG.1, ProperItems.imp₂ h hF.2 hG.2⟩

theorem ProperFields.imp₂ (h : ∀ repr, F repr → G repr → H repr) :
    ∀ {fields : List (String × Json)}, ProperFields F fields → ProperFields G fields →
      ProperFields H fields
  | [], _, _ => trivial
  | (_, _) :: _, hF, hG => ⟨Proper.imp₂ h hF.1 hG.1, ProperFields.imp₂ h hF.2 hG.2⟩

end

end Proper

section Accepted

variable {canon : String → String} {cs rest : List Char} {v : Json}

theorem ofDigitChars_lt {digits : List Char} (h : ∀ c ∈ digits, c.isDigit = true) :
    Nat.ofDigitChars 10 digits 0 < 10 ^ digits.length := by
  induction digits with
  | nil => decide
  | cons c digits ih =>
      have hc : c.toNat - '0'.toNat ≤ 9 := by
        have hdigit := h c List.mem_cons_self
        rw [Char.isDigit_iff_toNat] at hdigit
        have hzero : '0'.toNat = 48 := rfl
        have hnine : '9'.toNat = 57 := rfl
        omega
      have hrest := ih fun c hc => h c (List.mem_cons_of_mem _ hc)
      rw [Nat.ofDigitChars_cons, Nat.mul_zero, Nat.zero_add, Nat.ofDigitChars_eq_ofDigitChars_zero,
        List.length_cons, Nat.pow_succ]
      have hmul := Nat.mul_le_mul_left (10 ^ digits.length) hc
      omega

/-- A number is read as a proper value. -/
theorem proper_of_readNumber {token : List Char} (htoken : token.all isNumberChar = true)
    (h : readNumber canon token = some v) : Proper (ReadFloat canon) v := by
  have hread := h
  unfold readNumber at h
  dsimp only at h
  split at h
  next => cases h
  next hdigits =>
    split at h
    next =>
      split at h
      next hlength =>
        obtain rfl := Option.some.inj h
        set digits := (magnitude token).takeWhile (·.isDigit) with hdef
        have hall : ∀ c ∈ digits, c.isDigit = true := fun c hc => List.mem_takeWhile_imp hc
        have hpos : 0 < digits.length :=
          List.length_pos_iff.2 fun hnil => hdigits (.inl hnil)
        have habs : (if token.head? = some '-' then -(Nat.ofDigitChars 10 digits 0 : ℤ)
            else (Nat.ofDigitChars 10 digits 0 : ℤ)).natAbs = Nat.ofDigitChars 10 digits 0 := by
          split <;> simp
        change (Nat.toDigits 10 _).length ≤ MAX_DIGITS
        rw [habs]
        have hle := (Nat.length_toDigits_le_iff (by decide) hpos).2 (ofDigitChars_lt hall)
        exact hle.trans hlength
      next => cases h
    next =>
      split at h
      next =>
        obtain rfl := Option.some.inj h
        exact .inr ⟨token, htoken, hread⟩
      next => cases h

theorem proper_of_readConstant (h : readConstant cs = some (v, rest)) :
    Proper (ReadFloat canon) v := by
  obtain ⟨e, he, hpair⟩ := Option.map_eq_some_iff.1 h
  obtain ⟨rfl, -⟩ := Prod.mk.inj hpair
  have hmem := List.mem_of_find?_eq_some he
  simp only [constants, List.mem_cons, List.not_mem_nil, or_false] at hmem
  rcases hmem with rfl | rfl | rfl | rfl | rfl | rfl
  · trivial
  · trivial
  · trivial
  · exact .inl rfl
  · exact .inl rfl
  · exact .inl rfl

theorem proper_of_readScalar (h : readScalar canon cs = some (v, rest)) :
    Proper (ReadFloat canon) v := by
  unfold readScalar at h
  split at h
  next found hconstant =>
    obtain rfl := Option.some.inj h
    exact proper_of_readConstant hconstant
  next =>
    obtain ⟨w, hw, hpair⟩ := Option.map_eq_some_iff.1 h
    obtain ⟨rfl, -⟩ := Prod.mk.inj hpair
    exact proper_of_readNumber (List.all_takeWhile) hw

/-- What the three readers return in `n` steps. -/
structure Accepts (canon : String → String) (n : ℕ) : Prop where
  value : ∀ cs v rest, readValue canon n cs = some (v, rest) → Proper (ReadFloat canon) v
  items : ∀ cs items rest, readItems canon n cs = some (items, rest) →
    ProperItems (ReadFloat canon) items
  fields : ∀ cs fields rest, readFields canon n cs = some (fields, rest) →
    ProperFields (ReadFloat canon) fields

theorem Accepts.value_succ {n : ℕ} (ih : Accepts canon n)
    (h : readValue canon (n + 1) cs = some (v, rest)) : Proper (ReadFloat canon) v := by
  rw [readValue] at h
  split at h
  next =>
    obtain ⟨read, -, hpair⟩ := Option.map_eq_some_iff.1 h
    obtain ⟨rfl, -⟩ := Prod.mk.inj hpair
    trivial
  next =>
    split at h
    next =>
      split at h
      next =>
        obtain ⟨rfl, -⟩ := Prod.mk.inj (Option.some.inj h)
        trivial
      next =>
        obtain ⟨⟨items, more⟩, hitems, hpair⟩ := Option.map_eq_some_iff.1 h
        obtain ⟨rfl, -⟩ := Prod.mk.inj hpair
        exact ih.items _ items more hitems
    next =>
      split at h
      next =>
        split at h
        next =>
          obtain ⟨rfl, -⟩ := Prod.mk.inj (Option.some.inj h)
          exact ⟨List.nodup_nil, trivial⟩
        next =>
          obtain ⟨⟨fields, more⟩, hfields, hpair⟩ := Option.map_eq_some_iff.1 h
          obtain ⟨rfl, -⟩ := Prod.mk.inj hpair
          refine ⟨Dict.keys_ofPairs_nodup fields, properFields_iff.2 fun field hmem => ?_⟩
          exact properFields_iff.1 (ih.fields _ fields more hfields) field
            (Dict.mem_of_mem_ofPairs hmem)
      next => exact proper_of_readScalar h

theorem Accepts.items_succ {n : ℕ} (ih : Accepts canon n) {items : List Json}
    (h : readItems canon (n + 1) cs = some (items, rest)) :
    ProperItems (ReadFloat canon) items := by
  rw [readItems] at h
  obtain ⟨⟨item, more⟩, hitem, h⟩ := Option.bind_eq_some_iff.1 h
  have hfirst := ih.value _ item more hitem
  dsimp only at h
  split at h
  next =>
    obtain ⟨⟨others, more'⟩, hothers, hpair⟩ := Option.map_eq_some_iff.1 h
    obtain ⟨rfl, -⟩ := Prod.mk.inj hpair
    exact ⟨hfirst, ih.items _ others more' hothers⟩
  next =>
    split at h
    next =>
      obtain ⟨rfl, -⟩ := Prod.mk.inj (Option.some.inj h)
      exact ⟨hfirst, trivial⟩
    next => cases h

theorem Accepts.fields_succ {n : ℕ} (ih : Accepts canon n) {fields : List (String × Json)}
    (h : readFields canon (n + 1) cs = some (fields, rest)) :
    ProperFields (ReadFloat canon) fields := by
  rw [readFields] at h
  split at h
  next => cases h
  next =>
    obtain ⟨⟨key, more⟩, -, h⟩ := Option.bind_eq_some_iff.1 h
    dsimp only at h
    split at h
    next => cases h
    next =>
      obtain ⟨⟨value, more'⟩, hvalue, h⟩ := Option.bind_eq_some_iff.1 h
      have hfirst := ih.value _ value more' hvalue
      dsimp only at h
      split at h
      next =>
        obtain ⟨⟨others, last⟩, hothers, hpair⟩ := Option.map_eq_some_iff.1 h
        obtain ⟨rfl, -⟩ := Prod.mk.inj hpair
        exact ⟨hfirst, ih.fields _ others last hothers⟩
      next =>
        split at h
        next =>
          obtain ⟨rfl, -⟩ := Prod.mk.inj (Option.some.inj h)
          exact ⟨hfirst, trivial⟩
        next => cases h

theorem accepts (n : ℕ) : Accepts canon n := by
  induction n with
  | zero =>
      constructor
      · intro cs v rest h
        cases h
      · intro cs items rest h
        cases h
      · intro cs fields rest h
        cases h
  | succ n ih =>
      exact ⟨fun _ _ _ h => ih.value_succ h, fun _ _ _ h => ih.items_succ h,
        fun _ _ _ h => ih.fields_succ h⟩

/-- What is accepted is proper. -/
theorem proper_of_loads {text : String} (h : loads canon text = some v) :
    Proper (ReadFloat canon) v := by
  obtain ⟨⟨w, rest⟩, hread, hend⟩ := Option.bind_eq_some_iff.1 h
  dsimp only at hend
  split at hend
  next =>
    obtain rfl := Option.some.inj hend
    exact (accepts _).value _ w rest hread
  next => cases hend

/-- The float is a number. -/
def IsFinite (repr : String) : Prop := specialFloats.lookup repr = none

/-- A float that was read and is a number is kept by every style. -/
theorem keeps_of_isFinite (hcanon : Prints canon) (style : Style) {repr : String}
    (hread : ReadFloat canon repr) (hfinite : IsFinite repr) : style.Keeps canon repr := by
  unfold IsFinite at hfinite
  have hspecial : ¬(specialFloats.lookup repr).isSome = true := by
    rw [hfinite]
    exact Bool.false_ne_true
  obtain ⟨token, htoken, hnumber⟩ := hread.resolve_left hspecial
  unfold Style.Keeps
  rw [hfinite]
  exact (hcanon token repr htoken hnumber).resolve_left hspecial

end Accepted

section JsonMode

mutual

/-- What `model_dump(mode="json")` makes of a value: a float that is no number becomes
`null`. -/
def jsonMode : Json → Json
  | .float repr => if (specialFloats.lookup repr).isSome then .null else .float repr
  | .arr items => .arr (jsonModeItems items)
  | .obj fields => .obj (jsonModeFields fields)
  | v => v

def jsonModeItems : List Json → List Json
  | [] => []
  | item :: items => jsonMode item :: jsonModeItems items

def jsonModeFields : List (String × Json) → List (String × Json)
  | [] => []
  | (name, value) :: fields => (name, jsonMode value) :: jsonModeFields fields

end

theorem keys_jsonModeFields (fields : List (String × Json)) :
    Dict.keys (jsonModeFields fields) = Dict.keys fields := by
  induction fields with
  | nil => rfl
  | cons field fields ih => exact congrArg (field.1 :: ·) ih

variable {F : String → Prop}

mutual

/-- A value whose floats are numbers is dumped as it is. -/
theorem jsonMode_eq (hF : ∀ repr, F repr → IsFinite repr) :
    ∀ {v : Json}, Proper F v → jsonMode v = v
  | .null, _ => rfl
  | .bool _, _ => rfl
  | .int _, _ => rfl
  | .float repr, h => by
      have hfinite : specialFloats.lookup repr = none := hF repr h
      rw [jsonMode, hfinite]
      rfl
  | .str _, _ => rfl
  | .arr _, h => congrArg Json.arr (jsonModeItems_eq hF h)
  | .obj _, h => congrArg Json.obj (jsonModeFields_eq hF h.2)

theorem jsonModeItems_eq (hF : ∀ repr, F repr → IsFinite repr) :
    ∀ {items : List Json}, ProperItems F items → jsonModeItems items = items
  | [], _ => rfl
  | _ :: _, h => congrArg₂ List.cons (jsonMode_eq hF h.1) (jsonModeItems_eq hF h.2)

theorem jsonModeFields_eq (hF : ∀ repr, F repr → IsFinite repr) :
    ∀ {fields : List (String × Json)}, ProperFields F fields → jsonModeFields fields = fields
  | [], _ => rfl
  | (name, _) :: _, h =>
      congrArg₂ (fun v fields => (name, v) :: fields) (jsonMode_eq hF h.1)
        (jsonModeFields_eq hF h.2)

end

/-- A float that `model_dump_json` keeps is a number, and `dumps` keeps it too. -/
theorem isFinite_of_keeps {canon : String → String} {repr : String}
    (h : Style.modelDump.Keeps canon repr) : IsFinite repr ∧ Style.dumps.Keeps canon repr := by
  unfold Style.Keeps at h ⊢
  unfold IsFinite
  cases hspecial : specialFloats.lookup repr with
  | none =>
      rw [hspecial] at h
      exact ⟨rfl, h⟩
  | some constant =>
      rw [hspecial] at h
      cases h

end JsonMode

end JsonText

end PrismAgent
