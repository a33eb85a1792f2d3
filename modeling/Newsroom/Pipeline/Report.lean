import Newsroom.Pipeline.Floor

/-!
# Reports

What the stages of a finished run have counted, and whether it adds up.

## Main Definitions

* `Report` — the counts of all stages
* `Report.producedTotal` — the articles written, as a word
* `Report.isConserved` — whether every article written was shown
* `Floor.report` — the report of a floor
* `inSequence` — whether the articles of each kind were shown in order

## Design Notes

The sums are sums of words and have no result where they leave the range of
words.  The check of conservation goes from left to right and stops at the first
part that fails, so a sum further right may then stay unevaluated.
-/

namespace Newsroom

/-- The counts of all stages of a run. -/
structure Report where
  /-- What the draws of the producers have started from. -/
  seed : UInt64 := 0
  produced : List Producer.Report
  dispatch : Dispatcher.Report
  /-- The texts that each co-editor has forwarded. -/
  edited : Tally
  screen : Screen.Report
  deriving DecidableEq, Repr

namespace Report

/-- The sum of the totals of tallies, added up in order. -/
def totalFrom (sum : Nat) : List Tally → Except Overflow Nat
  | [] => .ok sum
  | t :: ts => do
      let n ← t.total
      let sum ← Word.add sum n
      totalFrom sum ts

/-- How many articles were written. -/
def producedTotal (r : Report) : Except Overflow Nat :=
  totalFrom 0 (r.produced.map Producer.Report.emitted)

/-- How many articles were given to the display. -/
def displayed (r : Report) : Nat := r.screen.displayed

/-- Whether every article written was routed or dropped, and every article routed
was forwarded and shown. -/
def isConserved (r : Report) : Except Overflow Bool := do
  let produced ← r.producedTotal
  let routed ← r.dispatch.routed.total
  let accounted ← Word.add routed r.dispatch.dropped
  if produced ≠ accounted then
    return false
  else if r.dispatch.routed ≠ r.edited then
    return false
  else
    let edited ← r.edited.total
    return edited = r.displayed

end Report

/-- The report of a floor. -/
def Floor.report {ρ α : Type} (f : Floor ρ α) : Report where
  seed := f.seed
  produced := f.producers.map Producer.report
  dispatch := f.dispatcher.report
  edited := f.coEditors.map CoEditor.forwarded
  screen := f.screen.report

/-! ### Order of the lines -/

/-- The numbers that are due for the lines that begin with a stem. -/
abbrev Due := List (List Char × Nat)

/-- The number that is due for a stem. -/
def Due.find (stem : List Char) : Due → Nat
  | [] => 0
  | e :: es => if e.1 = stem then e.2 else Due.find stem es

/-- The numbers that are due after a line that begins with a stem. -/
def Due.advance (stem : List Char) : Due → Due
  | [] => [(stem, 1)]
  | e :: es => if e.1 = stem then (e.1, e.2 + 1) :: es else e :: Due.advance stem es

/-- Whether lines continue the sequences that are under way. -/
def inSequenceFrom (due : Due) : List String → Bool
  | [] => true
  | l :: ls =>
      match Text.cutAtLast? ' ' l.toList with
      | some (stem, number) =>
          Text.digits? number = some (due.find stem) && inSequenceFrom (due.advance stem) ls
      | none => false

/-- Whether the lines that agree before their last space are numbered from zero,
in order. -/
def inSequence (lines : List String) : Bool :=
  inSequenceFrom [] lines

example : inSequence ["a 0", "b 0", "a 1"] = true := by decide +kernel
example : inSequence ["a 1", "a 0"] = false := by decide +kernel

end Newsroom
