import Newsroom.Word

/-!
# Decimal numerals

Natural numbers in ASCII digits.  A numeral that is read may carry a `+` and
any number of leading zeros; one that is written carries neither.

## Main Definitions

* `digits?` — the value of a non-empty run of ASCII digits
* `unsigned?` — the same after an optional `+`, below a bound
* `decimal` — the shortest numeral of a number
-/

namespace Newsroom.Text

/-- The value of a non-empty run of ASCII digits. -/
def digits? (cs : List Char) : Option Nat :=
  if cs.isEmpty then none
  else if cs.all Char.isDigit then some (Nat.ofDigitChars 10 cs 0)
  else none

/-- A numeral without its optional `+`. -/
def dropPlus : List Char → List Char
  | '+' :: cs => cs
  | cs => cs

/-- The value of an optional `+` and ASCII digits, where it is below `bound`. -/
def unsigned? (bound : Nat) (cs : List Char) : Option Nat :=
  (digits? (dropPlus cs)).filter (· < bound)

/-- A numeral of a 32-bit word. -/
def word32? (cs : List Char) : Option UInt32 :=
  (unsigned? Word.limit32 cs).map UInt32.ofNat

/-- A numeral of a 64-bit word. -/
def word64? (cs : List Char) : Option UInt64 :=
  (unsigned? Word.limit cs).map UInt64.ofNat

/-- The shortest numeral of a number. -/
def decimal (n : Nat) : List Char :=
  Nat.toDigits 10 n

theorem all_isDigit_decimal (n : Nat) : (decimal n).all Char.isDigit = true := by
  rw [List.all_eq_true]
  exact fun c hc => Nat.isDigit_of_mem_toDigits (by decide) (by decide) hc

/-- A written numeral is read back. -/
theorem digits?_decimal (n : Nat) : digits? (decimal n) = some n := by
  have hne : (decimal n).isEmpty = false := by simp [decimal]
  simp [digits?, hne, all_isDigit_decimal n]
  exact Nat.ofDigitChars_toDigits (by decide) (by decide)

/-- Different numbers have different numerals. -/
theorem decimal_inj {m n : Nat} : decimal m = decimal n ↔ m = n := by
  refine ⟨fun h => ?_, congrArg decimal⟩
  have hread := digits?_decimal m
  rw [h, digits?_decimal] at hread
  exact (Option.some.inj hread).symm

example : unsigned? 256 "+0255".toList = some 255 := by decide
example : unsigned? 256 "256".toList = none := by decide
example : unsigned? 256 "++1".toList = none := by decide

end Newsroom.Text
