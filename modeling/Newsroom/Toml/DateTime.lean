import Newsroom.Text.Numeral

/-!
# Dates and times of a document

Which words are a date, a time of day or both.

## Main Definitions

* `Toml.isDate` — a day of the calendar, `yyyy-mm-dd`
* `Toml.isTime` — a time of day, `hh:mm:ss` with an optional fraction
* `Toml.isMoment` — a date followed by a time and an optional offset
-/

namespace Newsroom.Toml

/-- The value of digits, if it lies between two bounds. -/
def inBounds (low high : Nat) (cs : List Char) : Bool :=
  match Text.digits? cs with
  | some n => low ≤ n && n ≤ high
  | none => false

/-- The length of a month. -/
def daysOf (year month : Nat) : Nat :=
  if month = 2 then
    if year % 4 = 0 ∧ (year % 100 ≠ 0 ∨ year % 400 = 0) then 29 else 28
  else if month = 4 ∨ month = 6 ∨ month = 9 ∨ month = 11 then 30
  else 31

/-- Whether a word is a day of the calendar. -/
def isDate : List Char → Bool
  | [y₁, y₂, y₃, y₄, '-', m₁, m₂, '-', d₁, d₂] =>
      match Text.digits? [y₁, y₂, y₃, y₄], Text.digits? [m₁, m₂] with
      | some year, some month =>
          1 ≤ month && month ≤ 12 && inBounds 1 (daysOf year month) [d₁, d₂]
      | _, _ => false
  | _ => false

/-- What follows the hours, minutes and seconds at the beginning of a word. -/
def afterClock? : List Char → Option (List Char)
  | h₁ :: h₂ :: ':' :: m₁ :: m₂ :: ':' :: s₁ :: s₂ :: cs =>
      if inBounds 0 23 [h₁, h₂] && inBounds 0 59 [m₁, m₂] && inBounds 0 60 [s₁, s₂] then some cs
      else none
  | _ => none

/-- What follows the time of day at the beginning of a word. -/
def afterTime? (cs : List Char) : Option (List Char) :=
  match afterClock? cs with
  | some ('.' :: d :: r) => if d.isDigit then some (r.dropWhile Char.isDigit) else none
  | r => r

/-- Whether a word is a time of day. -/
def isTime (cs : List Char) : Bool :=
  afterTime? cs == some []

/-- Whether a word is the distance of a local time from universal time. -/
def isOffset : List Char → Bool
  | [z] => z = 'Z' || z = 'z'
  | [s, h₁, h₂, ':', m₁, m₂] =>
      (s = '+' || s = '-') && inBounds 0 23 [h₁, h₂] && inBounds 0 59 [m₁, m₂]
  | _ => false

/-- Whether a word is a time of day with or without an offset. -/
def isTimeWithOffset (cs : List Char) : Bool :=
  match afterTime? cs with
  | some [] => true
  | some r => isOffset r
  | none => false

/-- Whether a word is a date and a time, joined by a letter. -/
def isMoment (cs : List Char) : Bool :=
  isDate (cs.take 10) &&
    match cs.drop 10 with
    | t :: r => (t = 'T' || t = 't') && isTimeWithOffset r
    | [] => false

example : isDate "2024-02-29".toList = true := by decide
example : isDate "2023-02-29".toList = false := by decide
example : isMoment "1979-05-27T07:32:00.5-07:00".toList = true := by decide

end Newsroom.Toml
