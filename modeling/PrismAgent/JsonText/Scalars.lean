import PrismAgent.JsonText.Strings

/-!
# Numbers and constants in JSON text

A number is the longest run of characters that may stand in one. A text with a fraction or an
exponent is a float; `canon` gives the text that prints it again, as `repr(float(text))` does.
-/

namespace PrismAgent

namespace JsonText

/-- How a writer writes: whether it escapes what is not ASCII, and whether it has constants
for the floats that are no numbers or writes `null` for them. -/
structure Style where
  ascii : Bool
  constants : Bool

/-- `json.dumps`. -/
def Style.dumps : Style := { ascii := true, constants := true }

/-- `model_dump_json`. -/
def Style.modelDump : Style := { ascii := false, constants := false }

def writeInt (n : ℤ) : List Char :=
  if n < 0 then '-' :: Nat.toDigits 10 n.natAbs else Nat.toDigits 10 n.natAbs

/-- The floats that are no numbers, and their constants. -/
def specialFloats : List (String × String) :=
  [("nan", "NaN"), ("inf", "Infinity"), ("-inf", "-Infinity")]

/-- The `repr` of a float. `model_dump_json` has other texts for some of them (`1e-7` for
`1e-07`), which read as the same float. -/
def writeFloat (style : Style) (repr : String) : List Char :=
  match specialFloats.lookup repr with
  | some constant => if style.constants then constant.toList else "null".toList
  | none => repr.toList

def isNumberChar (c : Char) : Bool := c.isDigit || c ∈ ['-', '+', '.', 'e', 'E']

/-- The digits that the text of an integer may have. -/
def MAX_DIGITS : ℕ := 4300

def isDigits (cs : List Char) : Bool := !cs.isEmpty && cs.all (·.isDigit)

/-- `([eE][-+]?[0-9]+)?` up to the end. -/
def isExponent : List Char → Bool
  | [] => true
  | e :: cs =>
      (e = 'e' || e = 'E') &&
        isDigits (if cs.head? = some '-' ∨ cs.head? = some '+' then cs.tail else cs)

/-- A fraction, an exponent or both, up to the end. -/
def isFraction (cs : List Char) : Bool :=
  if cs.head? = some '.' then
    !(cs.tail.takeWhile (·.isDigit)).isEmpty && isExponent (cs.tail.dropWhile (·.isDigit))
  else !cs.isEmpty && isExponent cs

/-- The number without its sign. -/
def magnitude (token : List Char) : List Char :=
  if token.head? = some '-' then token.tail else token

def readNumber (canon : String → String) (token : List Char) : Option Json :=
  let digits := (magnitude token).takeWhile (·.isDigit)
  let rest := (magnitude token).dropWhile (·.isDigit)
  if digits = [] ∨ (digits.head? = some '0' ∧ digits ≠ ['0']) then none
  else if rest = [] then
    if digits.length ≤ MAX_DIGITS then
      let n := Nat.ofDigitChars 10 digits 0
      some (.int (if token.head? = some '-' then -n else n))
    else none
  else if isFraction rest then some (.float (canon (String.ofList token)))
  else none

def constants : List (String × Json) :=
  [("null", .null), ("true", .bool true), ("false", .bool false), ("NaN", .float "nan"),
    ("Infinity", .float "inf"), ("-Infinity", .float "-inf")]

def readConstant (cs : List Char) : Option (Json × List Char) :=
  (constants.find? fun e => e.1.toList.isPrefixOf cs).map fun e =>
    (e.2, cs.drop e.1.toList.length)

def readScalar (canon : String → String) (cs : List Char) : Option (Json × List Char) :=
  match readConstant cs with
  | some found => some found
  | none =>
      (readNumber canon (cs.takeWhile isNumberChar)).map fun v => (v, cs.dropWhile isNumberChar)

/-- The text prints a float that is a number. -/
def FloatText (canon : String → String) (repr : String) : Prop :=
  repr.toList.all isNumberChar = true ∧ readNumber canon repr.toList = some (.float repr)

/-- The style writes the float as a text that is read as the same float. -/
def Style.Keeps (style : Style) (canon : String → String) (repr : String) : Prop :=
  match specialFloats.lookup repr with
  | some _ => style.constants = true
  | none => FloatText canon repr

/-- No number goes on with `rest`. -/
def Ends (rest : List Char) : Prop := ∀ c ∈ rest.head?, isNumberChar c = false

section Numbers

variable {canon : String → String} {token rest : List Char} {v : Json}

theorem takeWhile_append_of_ends (htoken : token.all isNumberChar = true) (hrest : Ends rest) :
    (token ++ rest).takeWhile isNumberChar = token ∧
      (token ++ rest).dropWhile isNumberChar = rest := by
  have hall : ∀ c ∈ token, isNumberChar c = true := List.all_eq_true.1 htoken
  rw [List.takeWhile_append_of_pos hall, List.dropWhile_append_of_pos hall]
  cases rest with
  | nil => exact ⟨List.append_nil _, rfl⟩
  | cons c rest =>
      have hc : isNumberChar c = false := hrest c rfl
      exact ⟨by rw [List.takeWhile_cons_of_neg (by simp [hc]), List.append_nil],
        List.dropWhile_cons_of_neg (by simp [hc])⟩

/-- A number starts with a digit, after its sign. -/
theorem head?_of_readNumber (h : readNumber canon token = some v) :
    ∃ c cs, magnitude token = c :: cs ∧ c.isDigit = true := by
  unfold readNumber at h
  dsimp only at h
  split at h
  next => cases h
  next hdigits =>
    cases hmagnitude : magnitude token with
    | nil =>
        rw [hmagnitude] at hdigits
        exact absurd (.inl rfl) hdigits
    | cons c cs =>
        refine ⟨c, cs, rfl, ?_⟩
        by_contra hc
        rw [hmagnitude, List.takeWhile_cons_of_neg hc] at hdigits
        exact hdigits (.inl rfl)

/-- No constant looks like a number. -/
theorem readConstant_of_number (h : ∃ c cs, magnitude token = c :: cs ∧ c.isDigit = true) :
    readConstant (token ++ rest) = none := by
  have hheads : ∀ e ∈ constants, (e.1.toList.head?.map Char.isDigit = some false) ∧
      (e.1.toList.head? = some '-' → e.1.toList.tail.head?.map Char.isDigit = some false) := by
    decide
  obtain ⟨c, cs, hmagnitude, hc⟩ := h
  unfold readConstant
  rw [Option.map_eq_none_iff, List.find?_eq_none]
  intro e he hprefix
  obtain ⟨hfirst, hsecond⟩ := hheads e he
  have hp : e.1.toList <+: token ++ rest := List.isPrefixOf_iff_prefix.1 hprefix
  obtain ⟨more, hmore⟩ := hp
  unfold magnitude at hmagnitude
  cases htext : e.1.toList with
  | nil =>
      rw [htext] at hfirst
      cases hfirst
  | cons k ks =>
      rw [htext] at hfirst hsecond hmore
      split at hmagnitude
      next hsign =>
        cases htoken : token with
        | nil =>
            rw [htoken] at hsign
            cases hsign
        | cons d ds =>
            rw [htoken] at hsign hmagnitude hmore
            obtain rfl : d = '-' := Option.some.inj hsign
            obtain rfl : ds = c :: cs := hmagnitude
            obtain ⟨rfl, htail⟩ := List.cons.inj hmore
            have hdigit := hsecond rfl
            cases ks with
            | nil => cases hdigit
            | cons m ms =>
                obtain ⟨rfl, -⟩ := List.cons.inj htail
                have hm : m.isDigit = false := Option.some.inj hdigit
                exact absurd hc (by simp [hm])
      next hsign =>
        rw [hmagnitude] at hmore
        obtain ⟨rfl, -⟩ := List.cons.inj hmore
        have hk : k.isDigit = false := Option.some.inj hfirst
        exact absurd hc (by simp [hk])

/-- A number is read up to where it ends. -/
theorem readScalar_of_readNumber (h : readNumber canon token = some v)
    (htoken : token.all isNumberChar = true) (hrest : Ends rest) :
    readScalar canon (token ++ rest) = some (v, rest) := by
  obtain ⟨htake, hdrop⟩ := takeWhile_append_of_ends htoken hrest
  unfold readScalar
  rw [readConstant_of_number (head?_of_readNumber h), htake, hdrop, h]
  rfl

theorem toDigits_all_isDigit (n : ℕ) : ∀ c ∈ Nat.toDigits 10 n, c.isDigit = true :=
  fun _ hc => Nat.isDigit_of_mem_toDigits (by decide) (by decide) hc

/-- No written number starts with a superfluous zero. -/
theorem toDigits_head (n : ℕ) :
    ¬((Nat.toDigits 10 n).head? = some '0' ∧ Nat.toDigits 10 n ≠ ['0']) := by
  rintro ⟨hhead, hne⟩
  induction n using Nat.strong_induction_on with
  | _ n ih =>
    by_cases hn : n < 10
    · rw [Nat.toDigits_of_lt_base hn] at hhead hne
      have hzero : n.digitChar = '0' := Option.some.inj hhead
      exact hne (by rw [hzero])
    · have hsplit := @Nat.toDigits_append_toDigits 10 (n / 10) (n % 10) (by decide) (by omega)
        (Nat.mod_lt _ (by decide))
      rw [Nat.div_add_mod] at hsplit
      rw [← hsplit, List.head?_append_of_ne_nil _ Nat.toDigits_ne_nil] at hhead
      refine ih (n / 10) (by omega) hhead fun hzero => ?_
      have hvalue := congrArg (fun cs => Nat.ofDigitChars 10 cs 0) hzero
      rw [Nat.ofDigitChars_toDigits (by decide) (by decide)] at hvalue
      have hdiv : n / 10 = 0 := hvalue
      omega

theorem magnitude_writeInt (n : ℤ) : magnitude (writeInt n) = Nat.toDigits 10 n.natAbs := by
  unfold writeInt
  split
  next => rfl
  next =>
    unfold magnitude
    rw [if_neg]
    intro hhead
    have hminus : '-' ∈ Nat.toDigits 10 n.natAbs := List.mem_of_head? hhead
    exact absurd (toDigits_all_isDigit _ _ hminus) (by decide)

theorem writeInt_sign (n : ℤ) : (writeInt n).head? = some '-' ↔ n < 0 := by
  constructor
  · intro hhead
    by_contra hn
    rw [writeInt, if_neg hn] at hhead
    have hminus : '-' ∈ Nat.toDigits 10 n.natAbs := List.mem_of_head? hhead
    exact absurd (toDigits_all_isDigit _ _ hminus) (by decide)
  · intro hn
    rw [writeInt, if_pos hn]
    rfl

theorem readNumber_writeInt {n : ℤ} (h : (Nat.toDigits 10 n.natAbs).length ≤ MAX_DIGITS) :
    readNumber canon (writeInt n) = some (.int n) := by
  have hdigits := toDigits_all_isDigit n.natAbs
  have hne : ¬(Nat.toDigits 10 n.natAbs = [] ∨ ((Nat.toDigits 10 n.natAbs).head? = some '0' ∧
      Nat.toDigits 10 n.natAbs ≠ ['0'])) :=
    not_or.2 ⟨Nat.toDigits_ne_nil, toDigits_head _⟩
  have hdrop : (Nat.toDigits 10 n.natAbs).dropWhile (·.isDigit) = [] :=
    List.dropWhile_eq_nil_iff.2 hdigits
  unfold readNumber
  rw [magnitude_writeInt, List.takeWhile_eq_self_iff.2 hdigits, hdrop]
  dsimp only
  rw [if_neg hne, if_pos rfl, if_pos h, Nat.ofDigitChars_toDigits (by decide) (by decide)]
  refine congrArg (fun m => some (Json.int m)) ?_
  by_cases hn : n < 0
  · rw [if_pos ((writeInt_sign n).2 hn)]
    omega
  · rw [if_neg fun hsign => hn ((writeInt_sign n).1 hsign)]
    omega

theorem writeInt_all (n : ℤ) : (writeInt n).all isNumberChar = true := by
  have hdigits : ∀ c ∈ Nat.toDigits 10 n.natAbs, isNumberChar c = true := fun c hc => by
    unfold isNumberChar
    rw [toDigits_all_isDigit _ c hc, Bool.true_or]
  refine List.all_eq_true.2 fun c hc => ?_
  unfold writeInt at hc
  split at hc
  next =>
    rcases List.mem_cons.1 hc with rfl | hc
    · rfl
    · exact hdigits c hc
  next => exact hdigits c hc

/-- A written integer is read back. -/
theorem readScalar_writeInt {n : ℤ} (h : (Nat.toDigits 10 n.natAbs).length ≤ MAX_DIGITS)
    (hrest : Ends rest) : readScalar canon (writeInt n ++ rest) = some (.int n, rest) :=
  readScalar_of_readNumber (readNumber_writeInt h) (writeInt_all n) hrest

/-- A float that the style keeps is read back. -/
theorem readScalar_writeFloat {style : Style} {repr : String} (h : style.Keeps canon repr)
    (hrest : Ends rest) :
    readScalar canon (writeFloat style repr ++ rest) = some (.float repr, rest) := by
  unfold Style.Keeps at h
  unfold writeFloat
  cases hspecial : specialFloats.lookup repr with
  | none =>
      rw [hspecial] at h
      exact readScalar_of_readNumber h.2 h.1 hrest
  | some constant =>
      rw [hspecial] at h
      have hmem : (repr, constant) ∈ specialFloats := by
        have hnodup : (Dict.keys specialFloats).Nodup := by decide
        exact (Dict.lookup_eq_some_iff hnodup).1 hspecial
      dsimp only at h ⊢
      rw [if_pos h]
      simp only [specialFloats, List.mem_cons, Prod.mk.injEq, List.not_mem_nil, or_false] at hmem
      rcases hmem with ⟨rfl, rfl⟩ | ⟨rfl, rfl⟩ | ⟨rfl, rfl⟩ <;> rfl

end Numbers

end JsonText

end PrismAgent
