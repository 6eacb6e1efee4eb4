import PrismAgent.Domain.Uuid

/-!
# Strings in JSON text

How a writer escapes the characters of a string and how a reader takes them back. A writer
either escapes what is not ASCII, as `json.dumps` does, or leaves it as it is.
-/

namespace PrismAgent

namespace JsonText

/-- The characters with a short escape and the letters that stand for them. -/
def shortEscapes : List (Char × Char) :=
  [('"', '"'), ('\\', '\\'), ('\n', 'n'), ('\r', 'r'), ('\t', 't'), ('\x08', 'b'), ('\x0c', 'f')]

/-- Four hexadecimal digits after `\u`. -/
def writeUnit (n : ℕ) : List Char :=
  ['\\', 'u', Nat.digitChar (n / 4096 % 16), Nat.digitChar (n / 256 % 16),
    Nat.digitChar (n / 16 % 16), Nat.digitChar (n % 16)]

/-- A character beyond the 16-bit range is written as two surrogates. -/
def writeUnicode (n : ℕ) : List Char :=
  if n < 0x10000 then writeUnit n
  else writeUnit (0xd800 + (n - 0x10000) / 0x400) ++ writeUnit (0xdc00 + (n - 0x10000) % 0x400)

def escapeChar (ascii : Bool) (c : Char) : List Char :=
  match shortEscapes.lookup c with
  | some letter => ['\\', letter]
  | none =>
      if c.toNat < 0x20 ∨ (ascii ∧ 0x7f ≤ c.toNat) then writeUnicode c.toNat else [c]

def escape (ascii : Bool) (cs : List Char) : List Char := cs.flatMap (escapeChar ascii)

def writeString (ascii : Bool) (s : String) : List Char :=
  '"' :: (escape ascii s.toList ++ ['"'])

/-- The character that a letter after a backslash stands for. -/
def unescape (letter : Char) : Option Char :=
  if letter = '/' then some '/' else (shortEscapes.find? fun e => e.2 = letter).map (·.1)

def readUnit : List Char → Option (ℕ × List Char)
  | a :: b :: c :: d :: rest => do
      let a ← Uuid.hexDigit a
      let b ← Uuid.hexDigit b
      let c ← Uuid.hexDigit c
      let d ← Uuid.hexDigit d
      return (4096 * a + 256 * b + 16 * c + d, rest)
  | _ => none

/-- The second of two surrogates. -/
def readSurrogate (high : ℕ) : List Char → Option (Char × List Char)
  | '\\' :: 'u' :: rest => do
      let (low, rest) ← readUnit rest
      if 0xdc00 ≤ low ∧ low < 0xe000 then
        return (Char.ofNat (0x10000 + (high - 0xd800) * 0x400 + (low - 0xdc00)), rest)
      else none
  | _ => none

/-- What follows `\u`. No character stands for a surrogate on its own: `json.loads` accepts such
a text, and what it gives cannot be printed in UTF-8; here it is refused. -/
def readUnicode (cs : List Char) : Option (Char × List Char) := do
  let (n, rest) ← readUnit cs
  if 0xd800 ≤ n ∧ n < 0xdc00 then readSurrogate n rest
  else if 0xdc00 ≤ n ∧ n < 0xe000 then none
  else return (Char.ofNat n, rest)

def readEscape : List Char → Option (Char × List Char)
  | [] => none
  | letter :: rest =>
      if letter = 'u' then readUnicode rest else (unescape letter).map fun c => (c, rest)

def readChar : List Char → Option (Char × List Char)
  | [] => none
  | c :: rest =>
      if c = '\\' then readEscape rest else if c.toNat < 0x20 then none else some (c, rest)

/-- The characters up to the closing quote, read in at most `n` steps. -/
def readChars : ℕ → List Char → Option (List Char × List Char)
  | 0, _ => none
  | n + 1, cs =>
      if cs.head? = some '"' then some ([], cs.tail)
      else do
        let (c, rest) ← readChar cs
        let (s, rest) ← readChars n rest
        return (c :: s, rest)

/-- What follows the opening quote. -/
def readString (cs : List Char) : Option (String × List Char) :=
  (readChars cs.length cs).map fun (s, rest) => (String.ofList s, rest)

section Units

variable {n : ℕ} {rest : List Char}

theorem hexDigit_digitChar (h : n < 16) : Uuid.hexDigit (Nat.digitChar n) = some n := by
  have hall : ∀ d < 16, Uuid.hexDigit (Nat.digitChar d) = some d := by decide
  exact hall n h

theorem readUnit_writeUnit (h : n < 0x10000) :
    readUnit ((writeUnit n).drop 2 ++ rest) = some (n, rest) := by
  have hdigits : ∀ m, Uuid.hexDigit (Nat.digitChar (m % 16)) = some (m % 16) := fun m =>
    hexDigit_digitChar (Nat.mod_lt _ (by decide))
  change readUnit (Nat.digitChar (n / 4096 % 16) :: Nat.digitChar (n / 256 % 16) ::
    Nat.digitChar (n / 16 % 16) :: Nat.digitChar (n % 16) :: rest) = _
  simp only [readUnit, hdigits, Option.bind_eq_bind, Option.bind_some, pure]
  refine congrArg some (Prod.ext ?_ rfl)
  change 4096 * (n / 4096 % 16) + 256 * (n / 256 % 16) + 16 * (n / 16 % 16) + n % 16 = n
  omega

theorem readChar_writeUnit :
    readChar (writeUnit n ++ rest) = readUnicode ((writeUnit n).drop 2 ++ rest) := rfl

theorem readSurrogate_writeUnit {high : ℕ} :
    readSurrogate high (writeUnit n ++ rest) = (do
      let (low, rest) ← readUnit ((writeUnit n).drop 2 ++ rest)
      if 0xdc00 ≤ low ∧ low < 0xe000 then
        return (Char.ofNat (0x10000 + (high - 0xd800) * 0x400 + (low - 0xdc00)), rest)
      else none) := rfl

end Units

/-- The code point of a character is no surrogate. -/
theorem toNat_char (c : Char) : c.toNat < 0xd800 ∨ 0xdfff < c.toNat ∧ c.toNat < 0x110000 := by
  have h := c.valid
  simp only [UInt32.isValidChar, Nat.isValidChar] at h
  simp only [Char.toNat]
  omega

/-- Four digits, or two surrogates, are read as the character they were written for. -/
theorem readChar_writeUnicode (c : Char) (rest : List Char) :
    readChar (writeUnicode c.toNat ++ rest) = some (c, rest) := by
  have hc := toNat_char c
  by_cases hsmall : c.toNat < 0x10000
  · have hhigh : ¬(0xd800 ≤ c.toNat ∧ c.toNat < 0xdc00) := by omega
    have hlow : ¬(0xdc00 ≤ c.toNat ∧ c.toNat < 0xe000) := by omega
    rw [writeUnicode, if_pos hsmall, readChar_writeUnit, readUnicode, readUnit_writeUnit hsmall]
    simp only [Option.bind_eq_bind, Option.bind_some, if_neg hhigh, if_neg hlow,
      Char.ofNat_toNat, pure]
  · obtain ⟨high, hhigh⟩ : ∃ high, high = 0xd800 + (c.toNat - 0x10000) / 0x400 := ⟨_, rfl⟩
    obtain ⟨low, hlow⟩ : ∃ low, low = 0xdc00 + (c.toNat - 0x10000) % 0x400 := ⟨_, rfl⟩
    have hhighRange : 0xd800 ≤ high ∧ high < 0xdc00 := by omega
    have hlowRange : 0xdc00 ≤ low ∧ low < 0xe000 := by omega
    have hvalue : 0x10000 + (high - 0xd800) * 0x400 + (low - 0xdc00) = c.toNat := by omega
    rw [writeUnicode, if_neg hsmall, ← hhigh, ← hlow, List.append_assoc, readChar_writeUnit,
      readUnicode, readUnit_writeUnit (by omega)]
    simp only [Option.bind_eq_bind, Option.bind_some, if_pos hhighRange]
    rw [readSurrogate_writeUnit, readUnit_writeUnit (by omega)]
    simp only [Option.bind_eq_bind, Option.bind_some, if_pos hlowRange, hvalue,
      Char.ofNat_toNat, pure]

theorem unescape_of_lookup {c letter : Char} (h : shortEscapes.lookup c = some letter) :
    letter ≠ 'u' ∧ unescape letter = some c := by
  have hmem : (c, letter) ∈ shortEscapes := by
    have hnodup : (Dict.keys shortEscapes).Nodup := by decide
    exact (Dict.lookup_eq_some_iff hnodup).1 h
  have hall : ∀ e ∈ shortEscapes, e.2 ≠ 'u' ∧ unescape e.2 = some e.1 := by decide
  exact hall _ hmem

/-- An escaped character is read back. -/
theorem readChar_escapeChar (ascii : Bool) (c : Char) (rest : List Char) :
    readChar (escapeChar ascii c ++ rest) = some (c, rest) := by
  unfold escapeChar
  cases hshort : shortEscapes.lookup c with
  | some letter =>
      obtain ⟨hletter, hunescape⟩ := unescape_of_lookup hshort
      change readEscape (letter :: rest) = _
      rw [readEscape, if_neg hletter, hunescape]
      rfl
  | none =>
      dsimp only
      split
      next => exact readChar_writeUnicode c rest
      next hplain =>
        have hslash : c ≠ '\\' := by
          rintro rfl
          cases hshort
        have hcontrol : ¬c.toNat < 0x20 := fun h => hplain (.inl h)
        change readChar (c :: rest) = _
        rw [readChar, if_neg hslash, if_neg hcontrol]

/-- No escaped character looks like the closing quote. -/
theorem head?_escapeChar (ascii : Bool) (c : Char) (rest : List Char) :
    (escapeChar ascii c ++ rest).head? ≠ some '"' := by
  unfold escapeChar
  cases hshort : shortEscapes.lookup c with
  | some letter => exact fun h => absurd (Option.some.inj h) (by decide)
  | none =>
      dsimp only
      split
      next =>
        unfold writeUnicode
        split <;> exact fun h => absurd (Option.some.inj h) (by decide)
      next =>
        intro h
        obtain rfl : c = '"' := Option.some.inj h
        cases hshort

theorem length_escapeChar_pos (ascii : Bool) (c : Char) : 0 < (escapeChar ascii c).length := by
  unfold escapeChar writeUnicode
  split
  next => exact Nat.succ_pos _
  next =>
    split
    next => split <;> exact Nat.succ_pos _
    next => exact Nat.succ_pos _

theorem readChars_escape {ascii : Bool} {cs rest : List Char} {n : ℕ}
    (h : (escape ascii cs).length < n) :
    readChars n (escape ascii cs ++ '"' :: rest) = some (cs, rest) := by
  induction cs generalizing n with
  | nil =>
      obtain ⟨m, rfl⟩ := Nat.exists_eq_succ_of_ne_zero (Nat.ne_of_gt (Nat.zero_lt_of_lt h))
      rfl
  | cons c cs ih =>
      obtain ⟨m, rfl⟩ := Nat.exists_eq_succ_of_ne_zero (Nat.ne_of_gt (Nat.zero_lt_of_lt h))
      have hcons : escape ascii (c :: cs) = escapeChar ascii c ++ escape ascii cs := rfl
      rw [hcons, List.length_append] at h
      have hpos := length_escapeChar_pos ascii c
      rw [hcons, List.append_assoc, readChars, if_neg (head?_escapeChar ascii c _),
        readChar_escapeChar]
      simp only [Option.bind_eq_bind, Option.bind_some]
      rw [ih (by omega)]
      rfl

/-- A written string is read back. -/
theorem readString_writeString (ascii : Bool) (s : String) (rest : List Char) :
    readString ((writeString ascii s).tail ++ rest) = some (s, rest) := by
  have htail : (writeString ascii s).tail ++ rest = escape ascii s.toList ++ '"' :: rest :=
    List.append_assoc _ _ _
  unfold readString
  rw [htail, readChars_escape (by simp only [List.length_append, List.length_cons]; omega)]
  exact congrArg some (Prod.ext String.ofList_toList rfl)

end JsonText

end PrismAgent
