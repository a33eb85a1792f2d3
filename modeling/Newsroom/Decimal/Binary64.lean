/-!
# Double-precision numbers

The finite double-precision numbers are multiples of `2 ^ (-1074)`.  A
magnitude is therefore kept as the natural number of these units, and rounding
is done on quotients of natural numbers.

## Main Definitions

* `Binary64` — a signed magnitude, an infinity or no number
* `Binary64.spacing` — the distance of neighbouring magnitudes
* `Binary64.ofDecimal` — the number nearest to a decimal fraction

## Design Notes

A decimal fraction is given by its digits and the power of ten they are
multiplied with.  Powers far outside the range of the format are settled before
they are computed, so a short text cannot ask for a huge number.
-/

namespace Newsroom

/-- A double-precision number. -/
inductive Binary64 where
  /-- A sign and a magnitude in units of `2 ^ (-1074)`. -/
  | finite (negative : Bool) (units : Nat)
  | infinite (negative : Bool)
  | nan
  deriving DecidableEq, Repr, Inhabited

namespace Binary64

/-- The number of units in one. -/
def one : Nat := Nat.pow 2 1074

/-- The least power of two that is too great, in units. -/
def tooGreat : Nat := Nat.pow 2 2098

/-- The distance from a magnitude of `units` to the next greater one: it leaves
53 significant binary digits, but is at least one unit. -/
def spacing (units : Nat) : Nat :=
  Nat.pow 2 (units.log2 - 52)

/-- The nearest integer to `num / den`; a half goes to the even neighbour. -/
def roundHalfEven (num den : Nat) : Nat :=
  let q := num / den
  let r := num % den
  if 2 * r < den then q
  else if den < 2 * r then q + 1
  else if q % 2 = 0 then q
  else q + 1

/-- The magnitude nearest to `num / den`, in units. -/
def nearest (num den : Nat) : Nat :=
  let step := spacing (num * one / den)
  roundHalfEven (num * one) (den * step) * step

/-- A magnitude with its sign, infinite if it is too great. -/
def ofUnits (negative : Bool) (units : Nat) : Binary64 :=
  if units < tooGreat then .finite negative units else .infinite negative

/-- The number nearest to `digits * 10 ^ exponent`.  If `l` is the binary
logarithm of the digits, they lie between `10 ^ (l / 4)` and `10 ^ (l + 1)`. -/
def ofDecimal (negative : Bool) (digits : Nat) (exponent : Int) : Binary64 :=
  if digits = 0 then .finite negative 0
  else if exponent + digits.log2 / 4 > 400 then .infinite negative
  else if exponent + digits.log2 + 1 < -400 then .finite negative 0
  else if 0 ≤ exponent then ofUnits negative (nearest (digits * Nat.pow 10 exponent.toNat) 1)
  else ofUnits negative (nearest digits (Nat.pow 10 (-exponent).toNat))

example : ofDecimal false 5 (-1) = .finite false (Nat.pow 2 1073) := by decide +kernel
example : ofDecimal false 1 400 = .infinite false := by decide +kernel

end Binary64

end Newsroom
