import PrismAgent.JsonText.Scalars

/-!
# JSON text

The compact writer and the reader of whole values. The reader counts down a number of steps
that the length of the text bounds; objects become dictionaries, in which a later field
overrides an earlier one of the same name.
-/

namespace PrismAgent

namespace JsonText

section Write

variable (style : Style)

mutual

def write : Json → List Char
  | .null => "null".toList
  | .bool b => if b then "true".toList else "false".toList
  | .int n => writeInt n
  | .float repr => writeFloat style repr
  | .str s => writeString style.ascii s
  | .arr [] => ['[', ']']
  | .arr (item :: items) => '[' :: (write item ++ writeItems items)
  | .obj [] => ['\x7b', '\x7d']
  | .obj ((key, value) :: fields) =>
      '\x7b' :: (writeString style.ascii key ++ ':' :: (write value ++ writeFields fields))

/-- The items after the first, and the end of the array. -/
def writeItems : List Json → List Char
  | [] => [']']
  | item :: items => ',' :: (write item ++ writeItems items)

/-- The fields after the first, and the end of the object. -/
def writeFields : List (String × Json) → List Char
  | [] => ['\x7d']
  | (key, value) :: fields =>
      ',' :: (writeString style.ascii key ++ ':' :: (write value ++ writeFields fields))

end

/-- The text of a value. -/
def dumps (v : Json) : String := String.ofList (write style v)

end Write

section Read

variable (canon : String → String)

def isSpace (c : Char) : Bool := c ∈ [' ', '\t', '\n', '\r']

def skipSpace (cs : List Char) : List Char := cs.dropWhile isSpace

mutual

/-- The value at the start of a text. -/
def readValue : ℕ → List Char → Option (Json × List Char)
  | 0, _ => none
  | n + 1, cs =>
      if cs.head? = some '"' then (readString cs.tail).map fun (s, rest) => (.str s, rest)
      else if cs.head? = some '[' then
        if (skipSpace cs.tail).head? = some ']' then some (.arr [], (skipSpace cs.tail).tail)
        else (readItems n (skipSpace cs.tail)).map fun (items, rest) => (.arr items, rest)
      else if cs.head? = some '\x7b' then
        if (skipSpace cs.tail).head? = some '\x7d' then
          some (.obj [], (skipSpace cs.tail).tail)
        else
          (readFields n (skipSpace cs.tail)).map fun (fields, rest) =>
            (.obj (Dict.ofPairs fields), rest)
      else readScalar canon cs

/-- The items from the next one on, with the end of the array. -/
def readItems : ℕ → List Char → Option (List Json × List Char)
  | 0, _ => none
  | n + 1, cs =>
      (readValue n cs).bind fun (item, rest) =>
        if (skipSpace rest).head? = some ',' then
          (readItems n (skipSpace (skipSpace rest).tail)).map fun (items, rest) =>
            (item :: items, rest)
        else if (skipSpace rest).head? = some ']' then some ([item], (skipSpace rest).tail)
        else none

/-- The fields from the next one on, with the end of the object. -/
def readFields : ℕ → List Char → Option (List (String × Json) × List Char)
  | 0, _ => none
  | n + 1, cs =>
      if cs.head? ≠ some '"' then none
      else
        (readString cs.tail).bind fun (key, rest) =>
          if (skipSpace rest).head? ≠ some ':' then none
          else
            (readValue n (skipSpace (skipSpace rest).tail)).bind fun (value, rest) =>
              if (skipSpace rest).head? = some ',' then
                (readFields n (skipSpace (skipSpace rest).tail)).map fun (fields, rest) =>
                  ((key, value) :: fields, rest)
              else if (skipSpace rest).head? = some '\x7d' then
                some ([(key, value)], (skipSpace rest).tail)
              else none

end

/-- `json.loads`, with nothing for a text that is no JSON. -/
def loads (text : String) : Option Json :=
  (readValue canon (text.length + 1) (skipSpace text.toList)).bind fun (v, rest) =>
    if skipSpace rest = [] then some v else none

end Read

section Proper

variable (F : String → Prop)

mutual

/-- The keys of every object are distinct, no integer is too long, and `F` holds of every
float. -/
def Proper : Json → Prop
  | .null => True
  | .bool _ => True
  | .int n => (Nat.toDigits 10 n.natAbs).length ≤ MAX_DIGITS
  | .float repr => F repr
  | .str _ => True
  | .arr items => ProperItems items
  | .obj fields => (Dict.keys fields).Nodup ∧ ProperFields fields

def ProperItems : List Json → Prop
  | [] => True
  | item :: items => Proper item ∧ ProperItems items

def ProperFields : List (String × Json) → Prop
  | [] => True
  | (_, value) :: fields => Proper value ∧ ProperFields fields

end

end Proper

section RoundTrip

variable {style : Style} {canon : String → String} {cs rest : List Char}

theorem skipSpace_cons {c : Char} (h : isSpace c = false) : skipSpace (c :: cs) = c :: cs :=
  List.dropWhile_cons_of_neg (by simp [h])

/-- A written value starts with none of the characters that the reader looks ahead for. -/
structure Starts (cs : List Char) : Prop where
  space : skipSpace cs = cs
  bracket : cs.head? ≠ some ']'

theorem Starts.of_head {c : Char} (hspace : isSpace c = false) (hbracket : c ≠ ']') :
    Starts (c :: cs) :=
  ⟨skipSpace_cons hspace, fun h => hbracket (Option.some.inj h)⟩

theorem head?_of_number {token : List Char}
    (h : ∃ c cs, magnitude token = c :: cs ∧ c.isDigit = true) :
    ∃ c cs, token = c :: cs ∧ (c.isDigit = true ∨ c = '-') := by
  obtain ⟨c, cs, hmagnitude, hc⟩ := h
  unfold magnitude at hmagnitude
  split at hmagnitude
  next hsign =>
    cases token with
    | nil => cases hsign
    | cons d ds => exact ⟨d, ds, rfl, .inr (Option.some.inj hsign)⟩
  next => exact ⟨c, cs, hmagnitude, .inl hc⟩

/-- A number is a scalar that starts as one. -/
structure IsScalar (cs : List Char) : Prop where
  starts : Starts cs
  quote : cs.head? ≠ some '"'
  array : cs.head? ≠ some '['
  object : cs.head? ≠ some '\x7b'

theorem IsScalar.of_head {c : Char} (hspace : isSpace c = false)
    (h : c ∉ [']', '"', '[', '\x7b']) : IsScalar (c :: cs) := by
  have hne : ∀ d ∈ [']', '"', '[', '\x7b'], (c :: cs).head? ≠ some d := fun d hd hc =>
    h (Option.some.inj hc ▸ hd)
  exact ⟨⟨skipSpace_cons hspace, hne _ (by decide)⟩, hne _ (by decide), hne _ (by decide),
    hne _ (by decide)⟩

theorem IsScalar.of_number {token : List Char}
    (h : ∃ c cs, magnitude token = c :: cs ∧ c.isDigit = true) : IsScalar (token ++ rest) := by
  obtain ⟨c, cs, rfl, hc⟩ := head?_of_number h
  have hne : ∀ d, d.isDigit = false → d ≠ '-' → c ≠ d := by
    rintro d hd hminus rfl
    rcases hc with hc | hc
    · exact absurd hc (by simp [hd])
    · exact hminus hc
  have hspace : isSpace c = false := by
    unfold isSpace
    rw [decide_eq_false_iff_not]
    intro hmem
    simp only [List.mem_cons, List.not_mem_nil, or_false] at hmem
    rcases hmem with rfl | rfl | rfl | rfl <;> exact hne _ (by decide) (by decide) rfl
  refine .of_head hspace fun hmem => ?_
  simp only [List.mem_cons, List.not_mem_nil, or_false] at hmem
  rcases hmem with rfl | rfl | rfl | rfl <;> exact hne _ (by decide) (by decide) rfl

theorem isScalar_writeInt (n : ℤ) : IsScalar (writeInt n ++ rest) := by
  refine .of_number ?_
  rw [magnitude_writeInt]
  cases hdigits : Nat.toDigits 10 n.natAbs with
  | nil => exact absurd hdigits Nat.toDigits_ne_nil
  | cons c cs =>
      exact ⟨c, cs, rfl, toDigits_all_isDigit _ c (hdigits ▸ List.mem_cons_self)⟩

theorem isScalar_writeFloat {repr : String} (h : style.Keeps canon repr) :
    IsScalar (writeFloat style repr ++ rest) := by
  unfold Style.Keeps at h
  unfold writeFloat
  cases hspecial : specialFloats.lookup repr with
  | none =>
      rw [hspecial] at h
      exact .of_number (head?_of_readNumber h.2)
  | some constant =>
      rw [hspecial] at h
      have hmem : (repr, constant) ∈ specialFloats := by
        have hnodup : (Dict.keys specialFloats).Nodup := by decide
        exact (Dict.lookup_eq_some_iff hnodup).1 hspecial
      dsimp only at h ⊢
      rw [if_pos h]
      simp only [specialFloats, List.mem_cons, Prod.mk.injEq, List.not_mem_nil, or_false] at hmem
      rcases hmem with ⟨rfl, rfl⟩ | ⟨rfl, rfl⟩ | ⟨rfl, rfl⟩ <;> exact .of_head rfl (by decide)

/-- The reader takes a scalar as one. -/
theorem readValue_of_isScalar (h : IsScalar cs) {n : ℕ} :
    readValue canon (n + 1) cs = readScalar canon cs := by
  rw [readValue, if_neg h.quote, if_neg h.array, if_neg h.object]

theorem starts_write {v : Json} (h : Proper (style.Keeps canon) v) :
    Starts (write style v ++ rest) := by
  cases v with
  | null => exact .of_head rfl (by decide)
  | bool b => cases b <;> exact .of_head rfl (by decide)
  | int n => exact (isScalar_writeInt n).starts
  | float repr => exact (isScalar_writeFloat h).starts
  | str s => exact .of_head rfl (by decide)
  | arr items => cases items <;> exact .of_head rfl (by decide)
  | obj fields => cases fields <;> exact .of_head rfl (by decide)

theorem length_write_pos {v : Json} (h : Proper (style.Keeps canon) v) :
    0 < (write style v).length := by
  have hne : write style v ≠ [] := by
    intro hnil
    cases v with
    | null => cases hnil
    | bool b => cases b <;> cases hnil
    | int n =>
        have hscalar := (@isScalar_writeInt [']'] n).starts.bracket
        rw [write] at hnil
        rw [hnil] at hscalar
        exact hscalar rfl
    | float repr =>
        have hscalar := (@isScalar_writeFloat style canon [']'] repr h).starts.bracket
        rw [write] at hnil
        rw [hnil] at hscalar
        exact hscalar rfl
    | str s => cases hnil
    | arr items => cases items <;> cases hnil
    | obj fields => cases fields <;> cases hnil
  exact List.length_pos_iff.2 hne

theorem Ends.of_head {c : Char} (h : isNumberChar c = false) : Ends (c :: cs) := by
  intro d hd
  obtain rfl : c = d := Option.some.inj hd
  exact h

theorem ends_writeItems (items : List Json) : Ends (writeItems style items ++ rest) := by
  cases items <;> exact .of_head rfl

theorem ends_writeFields (fields : List (String × Json)) :
    Ends (writeFields style fields ++ rest) := by
  cases fields with
  | nil => exact .of_head rfl
  | cons field fields =>
      obtain ⟨key, value⟩ := field
      exact .of_head rfl

theorem readValue_writeString {n : ℕ} (s : String) :
    readValue canon (n + 1) (writeString style.ascii s ++ rest) = some (.str s, rest) := by
  have hstring := readString_writeString style.ascii s rest
  rw [readValue, if_pos (by rfl)]
  change (readString ((writeString style.ascii s).tail ++ rest)).map _ = _
  rw [hstring]
  rfl

/-- The reader gives the value back wherever the text of the value stands. -/
def ReadBack (style : Style) (canon : String → String) (v : Json) : Prop :=
  ∀ n rest, Ends rest → (write style v).length ≤ n →
    readValue canon n (write style v ++ rest) = some (v, rest)

/-- The name and the value of a field, and then on. -/
theorem readFields_field {value : Json} (h : Proper (style.Keeps canon) value)
    (hvalue : ReadBack style canon value) {n : ℕ} (hn : (write style value).length ≤ n)
    {more : List Char} (hmore : Ends more) (key : String) :
    readFields canon (n + 1) (writeString style.ascii key ++ ':' :: (write style value ++ more)) =
      if (skipSpace more).head? = some ',' then
        (readFields canon n (skipSpace (skipSpace more).tail)).map fun (fields, rest) =>
          ((key, value) :: fields, rest)
      else if (skipSpace more).head? = some '\x7d' then
        some ([(key, value)], (skipSpace more).tail)
      else none := by
  have hkey := readString_writeString style.ascii key (':' :: (write style value ++ more))
  have hcolon : skipSpace (':' :: (write style value ++ more)) =
      ':' :: (write style value ++ more) := skipSpace_cons rfl
  have hquote : (writeString style.ascii key ++ ':' :: (write style value ++ more)).head? =
      some '"' := rfl
  have htail : (writeString style.ascii key ++ ':' :: (write style value ++ more)).tail =
      (writeString style.ascii key).tail ++ ':' :: (write style value ++ more) := rfl
  rw [readFields, if_neg (not_not.2 hquote), htail, hkey, Option.bind_some]
  simp only [hcolon, List.head?_cons, List.tail_cons, ne_eq, not_true_eq_false, if_false,
    (starts_write h).space, hvalue n more hmore hn, Option.bind_some]

mutual

/-- A written value is read back in as many steps as its text has characters. -/
theorem readBack : ∀ {v : Json}, Proper (style.Keeps canon) v → ReadBack style canon v
  | v, h, 0, rest, _, hn => absurd (length_write_pos h) (Nat.not_lt.2 hn)
  | .null, _, n + 1, rest, _, _ => readValue_of_isScalar (.of_head rfl (by decide))
  | .bool true, _, n + 1, rest, _, _ => readValue_of_isScalar (.of_head rfl (by decide))
  | .bool false, _, n + 1, rest, _, _ => readValue_of_isScalar (.of_head rfl (by decide))
  | .int k, h, n + 1, rest, hrest, _ => by
      rw [write, readValue_of_isScalar (isScalar_writeInt k)]
      exact readScalar_writeInt h hrest
  | .float repr, h, n + 1, rest, hrest, _ => by
      rw [write, readValue_of_isScalar (isScalar_writeFloat h)]
      exact readScalar_writeFloat h hrest
  | .str s, _, n + 1, rest, _, _ => readValue_writeString s
  | .arr [], _, n + 1, rest, _, _ => rfl
  | .arr (item :: items), ⟨hitem, hitems⟩, n + 1, rest, _, hn => by
      have hlength : (write style item).length + (writeItems style items).length ≤ n := by
        rw [write, List.length_cons, List.length_append] at hn
        omega
      have hread := readItems_write hitems item (readBack hitem) n rest hlength
      have hstarts := @starts_write style canon (writeItems style items ++ rest) item hitem
      rw [write, List.cons_append, List.append_assoc, readValue, if_neg (by simp),
        if_pos (by rfl), List.tail_cons, hstarts.space, if_neg hstarts.bracket, hread]
      rfl
  | .obj [], _, n + 1, rest, _, _ => rfl
  | .obj ((key, value) :: fields), ⟨hkeys, hvalue, hfields⟩, n + 1, rest, _, hn => by
      have hlength : (write style value).length + (writeFields style fields).length ≤ n := by
        rw [write, List.length_cons, List.length_append, List.length_cons,
          List.length_append] at hn
        omega
      have hread := readFields_write hfields key value hvalue (readBack hvalue) n rest hlength
      have hquote : ∀ cs, skipSpace (writeString style.ascii key ++ cs) =
          writeString style.ascii key ++ cs := fun cs => skipSpace_cons rfl
      have hfull : ∀ cs, (writeString style.ascii key ++ cs).head? ≠ some '\x7d' := fun cs h =>
        absurd (Option.some.inj h) (by decide)
      rw [write, List.cons_append, List.append_assoc, List.cons_append, List.append_assoc,
        readValue, if_neg (by simp), if_neg (by simp), if_pos (by rfl), List.tail_cons, hquote,
        if_neg (hfull _), hread, Option.map_some]
      exact congrArg (fun fields => some (Json.obj fields, rest)) (Dict.ofPairs_eq_self hkeys)

theorem readItems_write : ∀ {items : List Json}, ProperItems (style.Keeps canon) items →
    ∀ item, ReadBack style canon item → ∀ n rest,
      (write style item).length + (writeItems style items).length ≤ n →
        readItems canon n (write style item ++ (writeItems style items ++ rest)) =
          some (item :: items, rest)
  | [], _, item, _, 0, rest, hn => absurd hn (by simp [writeItems])
  | next :: items, _, item, _, 0, rest, hn => absurd hn (by simp [writeItems])
  | [], _, item, hitem, n + 1, rest, hn => by
      have hlength : (write style item).length ≤ n := by
        rw [writeItems, List.length_singleton] at hn
        omega
      rw [readItems, hitem _ _ (ends_writeItems []) hlength]
      rfl
  | next :: items, ⟨hnext, hitems⟩, item, hitem, n + 1, rest, hn => by
      have hlength : (write style item).length ≤ n ∧
          (write style next).length + (writeItems style items).length ≤ n := by
        rw [writeItems, List.length_cons, List.length_append] at hn
        omega
      have hmore := readItems_write hitems next (readBack hnext) n rest hlength.2
      have hstarts := @starts_write style canon (writeItems style items ++ rest) next hnext
      have hcomma : writeItems style (next :: items) ++ rest =
          ',' :: (write style next ++ (writeItems style items ++ rest)) := by
        rw [writeItems, List.cons_append, List.append_assoc]
      have hskip : skipSpace (',' :: (write style next ++ (writeItems style items ++ rest))) =
          ',' :: (write style next ++ (writeItems style items ++ rest)) := skipSpace_cons rfl
      rw [readItems, hitem _ _ (ends_writeItems _) hlength.1, Option.bind_some, hcomma]
      simp only [hskip, List.head?_cons, List.tail_cons, if_true, hstarts.space, hmore,
        Option.map_some]

theorem readFields_write : ∀ {fields : List (String × Json)},
    ProperFields (style.Keeps canon) fields → ∀ key value, Proper (style.Keeps canon) value →
      ReadBack style canon value →
      ∀ n rest, (write style value).length + (writeFields style fields).length ≤ n →
        readFields canon n (writeString style.ascii key ++ ':' :: (write style value ++
          (writeFields style fields ++ rest))) = some ((key, value) :: fields, rest)
  | [], _, key, value, _, _, 0, rest, hn => absurd hn (by simp [writeFields])
  | (_, _) :: _, _, key, value, _, _, 0, rest, hn => absurd hn (by simp [writeFields])
  | [], _, key, value, h, hvalue, n + 1, rest, hn => by
      have hlength : (write style value).length ≤ n := by
        rw [writeFields, List.length_singleton] at hn
        omega
      rw [readFields_field h hvalue hlength (ends_writeFields [])]
      rfl
  | (key', next) :: fields, ⟨hnext, hfields⟩, key, value, h, hvalue, n + 1, rest, hn => by
      have hlength : (write style value).length ≤ n ∧
          (write style next).length + (writeFields style fields).length ≤ n := by
        rw [writeFields, List.length_cons, List.length_append, List.length_cons,
          List.length_append] at hn
        omega
      have hmore := readFields_write hfields key' next hnext (readBack hnext) n rest hlength.2
      have hcomma : writeFields style ((key', next) :: fields) ++ rest =
          ',' :: (writeString style.ascii key' ++ ':' :: (write style next ++
            (writeFields style fields ++ rest))) := by
        rw [writeFields, List.cons_append, List.append_assoc, List.cons_append,
          List.append_assoc]
      have hskip : ∀ cs, skipSpace (',' :: cs) = ',' :: cs := fun cs => skipSpace_cons rfl
      have hquote : ∀ cs, skipSpace (writeString style.ascii key' ++ cs) =
          writeString style.ascii key' ++ cs := fun cs => skipSpace_cons rfl
      rw [readFields_field h hvalue hlength.1 (ends_writeFields _), hcomma]
      simp only [hskip, List.head?_cons, List.tail_cons, if_true, hquote, hmore,
        Option.map_some]

end

/-- A written value is read back. -/
theorem loads_dumps {v : Json} (h : Proper (style.Keeps canon) v) :
    loads canon (dumps style v) = some v := by
  have hread := readBack h ((write style v).length + 1) [] (by rintro c ⟨⟩) (Nat.le_succ _)
  have hstarts := @starts_write style canon [] v h
  rw [List.append_nil] at hread hstarts
  unfold loads dumps
  rw [String.length_ofList, String.toList_ofList, hstarts.space, hread]
  rfl

end RoundTrip

end JsonText

end PrismAgent
