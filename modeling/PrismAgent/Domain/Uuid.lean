import PrismAgent.Domain.Json

/-!
# UUID syntax

`UUID(text)` of the standard library: the texts `urn:` and `uuid:` are dropped wherever they
stand, braces around the rest and all hyphens too, and the 32 characters that must be left
are read as `int(text, 16)` reads them.
-/

namespace PrismAgent

namespace Uuid

/-- `text.replace(pattern, "")`; `skip` characters belong to an occurrence. -/
def remove (pattern : List Char) : ℕ → List Char → List Char
  | _, [] => []
  | skip + 1, _ :: cs => remove pattern skip cs
  | 0, c :: cs =>
      if pattern.isPrefixOf (c :: cs) then remove pattern (pattern.length - 1) cs
      else c :: remove pattern 0 cs

def isBrace (c : Char) : Bool := c = '\x7b' ∨ c = '\x7d'

/-- The value of a digit that `toAscii` has read. -/
def hexDigit (c : Char) : Option ℕ :=
  if c.isDigit then some (c.toNat - '0'.toNat)
  else if 'a' ≤ c ∧ c ≤ 'f' then some (c.toNat - 'a'.toNat + 10)
  else if 'A' ≤ c ∧ c ≤ 'F' then some (c.toNat - 'A'.toNat + 10)
  else none

/-- The zeros of the decimal digits beyond ASCII. -/
def DECIMAL_ZEROS : List ℕ :=
  [0x660, 0x6f0, 0x7c0, 0x966, 0x9e6, 0xa66, 0xae6, 0xb66, 0xbe6, 0xc66, 0xce6, 0xd66, 0xde6,
    0xe50, 0xed0, 0xf20, 0x1040, 0x1090, 0x17e0, 0x1810, 0x1946, 0x19d0, 0x1a80, 0x1a90, 0x1b50,
    0x1bb0, 0x1c40, 0x1c50, 0xa620, 0xa8d0, 0xa900, 0xa9d0, 0xa9f0, 0xaa50, 0xabf0, 0xff10,
    0x104a0, 0x10d30, 0x11066, 0x110f0, 0x11136, 0x111d0, 0x112f0, 0x11450, 0x114d0, 0x11650,
    0x116c0, 0x11730, 0x118e0, 0x11950, 0x11c50, 0x11d50, 0x11da0, 0x16a60, 0x16ac0, 0x16b50,
    0x1d7ce, 0x1d7d8, 0x1d7e2, 0x1d7ec, 0x1d7f6, 0x1e140, 0x1e2f0, 0x1e950, 0x1fbf0]

/-- What `int` reads a character as: white space beyond ASCII as a blank, and a decimal digit by
its value. -/
def toAscii (c : Char) : Char :=
  if c.toNat < 127 then c
  else if isWhiteSpace c then ' '
  else
    match DECIMAL_ZEROS.find? fun first => first ≤ c.toNat ∧ c.toNat < first + 10 with
    | some first => Nat.digitChar (c.toNat - first)
    | none => '?'

/-- The blanks that `int` drops at both ends. -/
def isBlank (c : Char) : Bool := (9 ≤ c.toNat && c.toNat ≤ 13) || c = ' '

/-- The value of hexadecimal digits after `n`; an underscore may stand between digits. -/
def digitsValue : List Char → Bool → ℕ → Option ℕ
  | [], afterDigit, n => if afterDigit then some n else none
  | c :: cs, afterDigit, n =>
      if c = '_' then if afterDigit then digitsValue cs false n else none
      else (hexDigit c).bind fun d => digitsValue cs true (16 * n + d)

/-- `int(text, 16)` of a text without hyphens. -/
def intBase16 (cs : List Char) : Option ℕ :=
  let stripped := (((cs.map toAscii).dropWhile isBlank).reverse.dropWhile isBlank).reverse
  let unsigned := match stripped with
    | '+' :: rest => rest
    | rest => rest
  match unsigned with
  | '0' :: 'x' :: '_' :: rest => digitsValue rest false 0
  | '0' :: 'X' :: '_' :: rest => digitsValue rest false 0
  | '0' :: 'x' :: rest => digitsValue rest false 0
  | '0' :: 'X' :: rest => digitsValue rest false 0
  | rest => digitsValue rest false 0

/-- The canonical text of a 128-bit number. -/
def print (n : ℕ) : String :=
  let digits := Nat.toDigits 16 n
  let hex := List.replicate (32 - digits.length) '0' ++ digits
  String.ofList (hex.take 8 ++ '-' :: (hex.drop 8).take 4 ++ '-' :: (hex.drop 12).take 4 ++
    '-' :: (hex.drop 16).take 4 ++ '-' :: hex.drop 20)

end Uuid

/-- `str(UUID(s))`, with nothing for a text that is no UUID. -/
def parseUuid (s : String) : Option String :=
  let bare := Uuid.remove "uuid:".toList 0 (Uuid.remove "urn:".toList 0 s.toList)
  let unbraced := ((bare.dropWhile Uuid.isBrace).reverse.dropWhile Uuid.isBrace).reverse
  let hex := unbraced.filter fun c => c ≠ '-'
  if hex.length = 32 then (Uuid.intBase16 hex).map Uuid.print else none

example : parseUuid "urn:uuid:\x7b00000000-0000-0000-0000-0000000000AB\x7d" =
    some "00000000-0000-0000-0000-0000000000ab" := by decide

namespace Uuid

theorem remove_cons {pattern : List Char} {c : Char} {cs : List Char}
    (h : pattern.isPrefixOf (c :: cs) = false) :
    remove pattern 0 (c :: cs) = c :: remove pattern 0 cs := by
  rw [remove, if_neg (by simp [h])]

/-- A character that no number holds. -/
def Foreign (c : Char) : Prop := hexDigit c = none ∧ c ≠ '_'

theorem digitsValue_of_foreign {cs : List Char} {c : Char} (hc : Foreign c) (hmem : c ∈ cs)
    (afterDigit : Bool) (n : ℕ) : digitsValue cs afterDigit n = none := by
  induction cs generalizing afterDigit n with
  | nil => cases hmem
  | cons d cs ih =>
      unfold digitsValue
      rcases List.mem_cons.1 hmem with rfl | hmem
      · rw [if_neg hc.2, hc.1]
        rfl
      · split
        · split
          · exact ih hmem _ _
          · rfl
        · cases hexDigit d with
          | none => rfl
          | some value => exact ih hmem _ _

theorem intBase16_of_foreign {cs : List Char} {c : Char} (hc : Foreign c) (hmem : c ∈ cs)
    (hascii : toAscii c = c) (hspace : isBlank c = false) (hsign : c ≠ '+')
    (hmark : c ≠ 'x' ∧ c ≠ 'X') :
    intBase16 cs = none := by
  have hzero : c ≠ '0' := by
    rintro rfl
    exact absurd hc.1 (by decide)
  have hmem' : c ∈ cs.map toAscii := List.mem_map.2 ⟨c, hmem, hascii⟩
  have hstripped :
      c ∈ (((cs.map toAscii).dropWhile isBlank).reverse.dropWhile isBlank).reverse :=
    List.mem_reverse.2 (mem_dropWhile (List.mem_reverse.2 (mem_dropWhile hmem' hspace)) hspace)
  have hunsigned : ∀ ds : List Char, c ∈ ds → c ∈ (match ds with
      | '+' :: rest => rest
      | rest => rest) := by
    intro ds hds
    split
    · exact (List.mem_cons.1 hds).resolve_left hsign
    · exact hds
  have hfound := hunsigned _ hstripped
  unfold intBase16
  dsimp only
  revert hfound
  generalize (match (((cs.map toAscii).dropWhile isBlank).reverse.dropWhile isBlank).reverse with
    | '+' :: rest => rest
    | rest => rest) = unsigned
  intro hfound
  split
  all_goals
    refine digitsValue_of_foreign hc ?_ _ _
    simpa [hzero, hc.2, hmark.1, hmark.2] using hfound

theorem mem_dropWhile_append_singleton {α : Type*} {p : α → Bool} {a : α} (h : p a = false)
    (xs : List α) : a ∈ (xs ++ [a]).dropWhile p := by
  induction xs with
  | nil => simp [h]
  | cons x xs ih =>
      rw [List.cons_append, List.dropWhile_cons]
      split
      · exact ih
      · simp

end Uuid

/-- The text of a state record is no UUID. -/
theorem parseUuid_state (s : String) : parseUuid ("state" ++ s) = none := by
  have hlist : ("state" ++ s).toList = 's' :: 't' :: 'a' :: 't' :: 'e' :: s.toList := by
    simp [String.toList_append]
  have hbare : ∃ rest, Uuid.remove "uuid:".toList 0
      (Uuid.remove "urn:".toList 0 ("state" ++ s).toList) = 's' :: rest := by
    rw [hlist, Uuid.remove_cons (show "urn:".toList.isPrefixOf _ = false from rfl),
      Uuid.remove_cons (show "uuid:".toList.isPrefixOf _ = false from rfl)]
    exact ⟨_, rfl⟩
  obtain ⟨rest, hrest⟩ := hbare
  unfold parseUuid
  dsimp only
  rw [hrest]
  split
  · rw [Uuid.intBase16_of_foreign (c := 's') ⟨by decide, by decide⟩ ?_ rfl (by decide)
      (by decide) ⟨by decide, by decide⟩]
    · rfl
    · refine List.mem_filter.2 ⟨List.mem_reverse.2 ?_, by decide⟩
      rw [List.dropWhile_cons_of_neg (by decide), List.reverse_cons]
      exact Uuid.mem_dropWhile_append_singleton (by decide) _
  · rfl

end PrismAgent
