/-!
# Rings

A fixed number of slots that are filled and emptied in turn.

## Main Definitions

* `Ring` — the slots and the places where the next push and pop happen
* `Ring.push?`, `Ring.pop?` — fill the slot at the tail, empty that at the head
* `Ring.contents` — the occupied slots from the head on

## Design Notes

A push into an occupied slot and a pop from a free one are refused.  A buffer
never asks for either.
-/

namespace Newsroom

/-- Slots that are filled at the tail and emptied at the head. -/
structure Ring (α : Type) where
  slots : List (Option α)
  head : Nat
  tail : Nat
  deriving DecidableEq, Repr

namespace Ring

variable {α : Type}

/-- A ring of free slots. -/
def empty (capacity : Nat) : Ring α :=
  ⟨List.replicate capacity none, 0, 0⟩

/-- The slot after another one, in turn. -/
def next (r : Ring α) (i : Nat) : Nat := (i + 1) % r.slots.length

/-- The slot at the tail is filled, if it is free. -/
def push? (r : Ring α) (a : α) : Option (Ring α) :=
  match r.slots[r.tail]? with
  | some none => some { r with slots := r.slots.set r.tail (some a), tail := r.next r.tail }
  | _ => none

/-- The slot at the head is emptied, if it is occupied. -/
def pop? (r : Ring α) : Option (α × Ring α) :=
  match r.slots[r.head]? with
  | some (some a) => some (a, { r with slots := r.slots.set r.head none, head := r.next r.head })
  | _ => none

/-- How many slots are occupied. -/
def occupied (r : Ring α) : Nat := r.slots.countP Option.isSome

/-- The slots in turn, from the head on. -/
def fromHead (r : Ring α) : List (Option α) :=
  r.slots.drop r.head ++ r.slots.take r.head

/-- What the occupied slots hold, from the head on. -/
def contents (r : Ring α) : List α := r.fromHead.filterMap id

example : ((empty 2 : Ring Nat).push? 1).map contents = some [1] := by decide
example : (empty 2 : Ring Nat).pop? = none := by decide

end Ring

end Newsroom
