import Mathlib.Data.List.DropRight

/-!
# ISO 8601 dates and date-times

The extended format: a calendar date, which may be followed by a time of the day, and that by
the offset from UTC. Nothing stands before or after it.
-/

namespace IsoDate

/-- The number that decimal digits denote. -/
def number (digits : List Char) : ℕ := digits.foldl (fun n d => 10 * n + (d.toNat - 48)) 0

def isLeapYear (year : ℕ) : Bool := year % 4 = 0 && (year % 100 ≠ 0 || year % 400 = 0)

def daysInMonth (year month : ℕ) : ℕ :=
  if month = 2 then if isLeapYear year then 29 else 28
  else if month ∈ [4, 6, 9, 11] then 30
  else 31

/-- `YYYY-MM-DD`, a day that the calendar has. -/
def isCalendarDate : List Char → Bool
  | [y₁, y₂, y₃, y₄, sep, m₁, m₂, sep', d₁, d₂] =>
      let year := number [y₁, y₂, y₃, y₄]
      let month := number [m₁, m₂]
      let day := number [d₁, d₂]
      [y₁, y₂, y₃, y₄, m₁, m₂, d₁, d₂].all Char.isDigit && sep = '-' && sep' = '-' &&
        0 < month && month ≤ 12 && 0 < day && day ≤ daysInMonth year month
  | _ => false

/-- Digits for a number below the limit. -/
def isBelow (limit : ℕ) (digits : List Char) : Bool :=
  digits.all Char.isDigit && number digits < limit

/-- `Z` or `±hh:mm`, or nothing in local time. -/
def isOffset : List Char → Bool
  | [] => true
  | ['Z'] => true
  | [sign, h₁, h₂, sep, m₁, m₂] =>
      (sign = '+' || sign = '-') && isBelow 24 [h₁, h₂] && sep = ':' && isBelow 60 [m₁, m₂]
  | _ => false

/-- A fraction of a second, if there is one, and the offset. -/
def isFraction : List Char → Bool
  | '.' :: digits =>
      digits.takeWhile Char.isDigit ≠ [] && isOffset (digits.dropWhile Char.isDigit)
  | offset => isOffset offset

/-- The seconds, if they are given, and what follows. -/
def isSeconds : List Char → Bool
  | ':' :: s₁ :: s₂ :: rest => isBelow 60 [s₁, s₂] && isFraction rest
  | offset => isOffset offset

/-- Nothing, or `Thh:mm` with what follows. -/
def isTime : List Char → Bool
  | [] => true
  | 'T' :: h₁ :: h₂ :: ':' :: m₁ :: m₂ :: rest =>
      isBelow 24 [h₁, h₂] && isBelow 60 [m₁, m₂] && isSeconds rest
  | _ => false

/-- A calendar date, or a date and time. -/
def isStrict (text : List Char) : Bool := isCalendarDate (text.take 10) && isTime (text.drop 10)

example : isStrict "2028-02-29".toList = true := by decide

example : isStrict "2026-06-30T23:59:59.5+02:00".toList = true := by decide

example : isStrict "2026-02-29".toList = false := by decide

/-- What a strict text begins with. -/
theorem exists_of_isStrict {text : List Char} (h : isStrict text = true) :
    ∃ y₁ y₂ y₃ y₄ m₁ m₂ d₁ d₂ rest,
      text = [y₁, y₂, y₃, y₄, '-', m₁, m₂, '-', d₁, d₂] ++ rest ∧
        ∀ d ∈ [y₁, y₂, y₃, y₄, m₁, m₂, d₁, d₂], d.isDigit = true := by
  obtain ⟨hdate, -⟩ := Bool.and_eq_true_iff.1 h
  unfold isCalendarDate at hdate
  split at hdate
  next y₁ y₂ y₃ y₄ sep m₁ m₂ sep' d₁ d₂ htake =>
    simp only [Bool.and_eq_true, decide_eq_true_eq, List.all_eq_true] at hdate
    obtain ⟨⟨⟨⟨⟨⟨hdigits, rfl⟩, rfl⟩, -⟩, -⟩, -⟩, -⟩ := hdate
    refine ⟨y₁, y₂, y₃, y₄, m₁, m₂, d₁, d₂, text.drop 10, ?_, hdigits⟩
    rw [← htake]
    exact (List.take_append_drop 10 text).symm
  next => cases hdate

end IsoDate
