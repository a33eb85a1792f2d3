import Newsroom.Decimal.Binary64
import Newsroom.Text.Numeral

/-!
# Shortest decimals

The text of a double-precision number: the fewest decimal digits that are read
back as the same number, and of those the nearest to it; of two that are equally
near the greater.

## Main Definitions

* `Binary64.readsBack` — whether a decimal is rounded to a given magnitude
* `Binary64.onGrid?` — the nearest decimal of a given number of digits that is
* `Binary64.shortest` — the decimal with the fewest digits
* `Binary64.text` — the number in positional notation, always with a point

## Design Notes

A decimal is a pair of its digits, as a number, and a power of ten.  A
magnitude of `u` units is `u / Binary64.one`.  If some decimal on a grid of
powers of ten is read back as the magnitude, then so is one of the two
neighbours of the magnitude on that grid, so only those are tried.
-/

namespace Newsroom.Binary64

/-- A decimal `digits * 10 ^ exponent`. -/
structure Decimal where
  digits : Nat
  exponent : Int
  deriving DecidableEq, Repr

/-- Numerator and denominator of four times a decimal, in units. -/
def Decimal.fourfold (d : Decimal) : Nat × Nat :=
  (4 * d.digits * Nat.pow 10 d.exponent.toNat * one, Nat.pow 10 (-d.exponent).toNat)

/-- Four times the magnitudes halfway to the two neighbours of a magnitude.
Below a power of two the neighbours are closer. -/
def halfway (units : Nat) : Nat × Nat :=
  let step := spacing units
  if units = Nat.pow 2 units.log2 ∧ 1 < step then (4 * units - step, 4 * units + 2 * step)
  else (4 * units - 2 * step, 4 * units + 2 * step)

/-- Whether a decimal is rounded to a magnitude.  The halfway points belong to
the magnitude with an even last binary digit. -/
def readsBack (units : Nat) (d : Decimal) : Bool :=
  let (num, den) := d.fourfold
  let (low, high) := halfway units
  if units / spacing units % 2 = 0 then low * den ≤ num && num ≤ high * den
  else low * den < num && num < high * den

/-- The exponent `k` with `10 ^ (k - 1) ≤ magnitude < 10 ^ k`.  The first guess
comes from the binary logarithm and is at most one off. -/
def decimalLength (units : Nat) : Int :=
  let guess : Int := ((units.log2 : Int) - 1074) * 1233 / 4096 + 1
  let reaches (k : Int) : Bool := Nat.pow 10 k.toNat * one ≤ units * Nat.pow 10 (-k).toNat
  if reaches guess then guess + 1
  else if reaches (guess - 1) then guess
  else guess - 1

/-- The lower neighbour of a magnitude on the multiples of a power of ten, and
whether the magnitude lies less than half a step above it. -/
def below (units : Nat) (exponent : Int) : Nat × Bool :=
  let num := units * Nat.pow 10 (-exponent).toNat
  let den := one * Nat.pow 10 exponent.toNat
  (num / den, 2 * (num % den) < den)

/-- The nearest decimal of `n` digits that reads back as a magnitude. -/
def onGrid? (units : Nat) (length : Int) (n : Nat) : Option Decimal :=
  let exponent := length - n
  let (digits, lower) := below units exponent
  let near : Decimal := ⟨if lower then digits else digits + 1, exponent⟩
  let far : Decimal := ⟨if lower then digits + 1 else digits, exponent⟩
  if readsBack units near then some near
  else if readsBack units far then some far
  else none

/-- The first grid from `n` digits on that has a decimal which reads back. -/
def shortestFrom (units : Nat) (length : Int) (n : Nat) : Nat → Decimal
  | 0 => ⟨units, 0⟩
  | budget + 1 =>
      match onGrid? units length n with
      | some d => d
      | none => shortestFrom units length (n + 1) budget

/-- The decimal with the fewest digits that reads back as a magnitude.
Seventeen digits always suffice. -/
def shortest (units : Nat) : Decimal :=
  shortestFrom units (decimalLength units) 1 17

/-- A decimal in positional notation, with `.0` after an integer. -/
def Decimal.positional (d : Decimal) : List Char :=
  if 0 ≤ d.exponent then
    Text.decimal (d.digits * Nat.pow 10 d.exponent.toNat) ++ ['.', '0']
  else
    let places := (-d.exponent).toNat
    let digits := Text.decimal d.digits
    let padded := List.replicate (places + 1 - digits.length) '0' ++ digits
    let whole := padded.take (padded.length - places)
    let fraction := (padded.drop (padded.length - places)).reverse.dropWhile (· == '0') |>.reverse
    whole ++ '.' :: (if fraction.isEmpty then ['0'] else fraction)

/-- The shortest text of a number in positional notation, always with a point. -/
def text : Binary64 → String
  | finite negative units =>
      let magnitude := if units = 0 then ['0', '.', '0'] else (shortest units).positional
      String.ofList (if negative then '-' :: magnitude else magnitude)
  | infinite negative => if negative then "-inf" else "inf"
  | nan => "NaN"

example : (ofDecimal false 15 (-1)).text = "1.5" := by decide +kernel
example : (ofDecimal true 1 (-1)).text = "-0.1" := by decide +kernel
example : (finite false (Nat.pow 2 1049)).text = "0.000000029802322387695313" := by decide +kernel

end Newsroom.Binary64
