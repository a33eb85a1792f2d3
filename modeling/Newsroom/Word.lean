/-!
# Machine words

Counters and sizes are numbers below `2 ^ 64`.  Adding two of them may leave
that range, and then the addition has no result.

## Main Definitions

* `Word.limit` — the number of words
* `exactSum` — the sum of a list of natural numbers
* `Overflow` — the fault of a sum that is no word
* `Word.add`, `Word.sum` — checked addition of two words and of a list

## Main Statements

* `Word.sum_eq` — a list is summed exactly, or refused because the exact sum is
  no word
-/

namespace Newsroom

/-- The sum of a list of natural numbers. -/
def exactSum : List Nat → Nat
  | [] => 0
  | n :: ns => n + exactSum ns

@[simp] theorem exactSum_nil : exactSum [] = 0 := rfl

@[simp] theorem exactSum_cons (n : Nat) (ns : List Nat) : exactSum (n :: ns) = n + exactSum ns :=
  rfl

/-- An addition whose exact result is not below `Word.limit`. -/
inductive Overflow where
  | addition
  deriving DecidableEq, Repr

/-- How an overflow is reported. -/
def Overflow.message : Overflow → String
  | .addition => "attempt to add with overflow"

namespace Word

/-- One more than the greatest word, `2 ^ 64`. -/
def limit : Nat := 0x10000000000000000

/-- One more than the greatest word of half the size, `2 ^ 32`. -/
def limit32 : Nat := 0x100000000

/-- The sum of two words. -/
def add (a b : Nat) : Except Overflow Nat :=
  if a + b < limit then .ok (a + b) else .error .addition

/-- A word increased by each word of a list in turn. -/
def sumFrom (a : Nat) : List Nat → Except Overflow Nat
  | [] => .ok a
  | b :: bs =>
      match add a b with
      | .ok c => sumFrom c bs
      | .error e => .error e

/-- The sum of a list of words. -/
def sum (bs : List Nat) : Except Overflow Nat :=
  sumFrom 0 bs

theorem sumFrom_eq {a : Nat} (ha : a < limit) (bs : List Nat) :
    sumFrom a bs =
      if a + exactSum bs < limit then .ok (a + exactSum bs) else .error .addition := by
  induction bs generalizing a with
  | nil => simp [sumFrom, ha]
  | cons b bs ih =>
      rw [exactSum_cons, ← Nat.add_assoc]
      by_cases h : a + b < limit
      · rw [← ih h, sumFrom, add, if_pos h]
      · rw [if_neg (by omega), sumFrom, add, if_neg h]

/-- A sum is exact, and refused only where the exact sum is no word. -/
theorem sum_eq (bs : List Nat) :
    sum bs = if exactSum bs < limit then .ok (exactSum bs) else .error .addition := by
  rw [sum, sumFrom_eq (by decide), Nat.zero_add]

end Word

end Newsroom
