import Newsroom.Category
import Newsroom.Word

/-!
# Tallies

How many articles there are of each category.

## Main Definitions

* `Tally` — one count for each category
* `Tally.total` — the checked sum of the three counts
* `Tally.sum` — their exact sum
* `Tally.bump`, `Tally.increase` — one more, or checked `n` more, of a category
-/

namespace Newsroom

/-- A count for each category. -/
abbrev Tally := ByCategory Nat

namespace Tally

/-- The tally of nothing. -/
def zero : Tally := ByCategory.const 0

/-- The exact sum of the three counts. -/
def sum (t : Tally) : Nat := t.sports + t.news + t.weather

/-- The sum of the three counts as a word, taken in routing order. -/
def total (t : Tally) : Except Overflow Nat := Word.sum t.toList

/-- One more of a category. -/
def bump (t : Tally) (c : Category) : Tally := t.set c (t.get c + 1)

/-- `n` more of a category, if the count stays a word. -/
def increase (t : Tally) (c : Category) (n : Nat) : Except Overflow Tally :=
  (Word.add (t.get c) n).map (t.set c)

/-- The counts by category of a list of categories. -/
def ofList (cs : List Category) : Tally := cs.foldl bump zero

@[simp] theorem get_zero (c : Category) : zero.get c = 0 := by
  cases c <;> rfl

theorem get_bump (t : Tally) (c d : Category) :
    (t.bump c).get d = t.get d + if d = c then 1 else 0 := by
  cases c <;> cases d <;> rfl

@[simp] theorem sum_bump (t : Tally) (c : Category) : (t.bump c).sum = t.sum + 1 := by
  cases c <;> simp [bump, sum, ByCategory.set, ByCategory.get] <;> omega

/-- The checked total is the exact sum, or the exact sum is no word. -/
theorem total_eq (t : Tally) :
    t.total = if t.sum < Word.limit then .ok t.sum else .error .addition := by
  rw [total, Word.sum_eq]
  have h : exactSum t.toList = t.sum := by simp [ByCategory.toList, sum]; omega
  rw [h]

end Tally

end Newsroom
