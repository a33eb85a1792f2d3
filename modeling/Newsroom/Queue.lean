import Newsroom.Error

/-!
# Queues

A buffer as its users see it: at most `capacity` messages, first in, first out.

## Main Definitions

* `Queue` — a named queue
* `Queue.make` — an empty queue, which needs room for a message
* `Queue.insert?`, `Queue.remove?` — the operations, where they need not wait
-/

namespace Newsroom

/-- A bounded queue. -/
structure Queue (α : Type) where
  name : String
  capacity : Nat
  items : List α := []
  deriving DecidableEq, Repr, Inhabited

namespace Queue

variable {α : Type}

/-- An empty queue, which needs room for a message. -/
def make (name : String) (capacity : Nat) : Except PipelineFault (Queue α) :=
  if capacity = 0 then .error (.zeroCapacity name) else .ok { name, capacity }

/-- A queue that is full of some messages. -/
def filled (name : String) (items : List α) : Queue α :=
  { name, capacity := max 1 items.length, items }

/-- The queue with a message at its end, if there is room. -/
def insert? (q : Queue α) (a : α) : Option (Queue α) :=
  if q.items.length < q.capacity then some { q with items := q.items ++ [a] } else none

/-- The message at the front and the queue without it, if there is one. -/
def remove? (q : Queue α) : Option (α × Queue α) :=
  match q.items with
  | [] => none
  | a :: as => some (a, { q with items := as })

/-- Whether there is no message. -/
def isEmpty (q : Queue α) : Bool := q.items.isEmpty

theorem items_insert? {q r : Queue α} {a : α} (h : q.insert? a = some r) :
    r.items = q.items ++ [a] ∧ r.capacity = q.capacity ∧ r.name = q.name ∧
      q.items.length < q.capacity := by
  unfold insert? at h
  split at h
  · cases h
    exact ⟨rfl, rfl, rfl, ‹_›⟩
  · cases h

theorem items_remove? {q r : Queue α} {a : α} (h : q.remove? = some (a, r)) :
    q.items = a :: r.items ∧ r.capacity = q.capacity ∧ r.name = q.name := by
  unfold remove? at h
  split at h
  · cases h
  · cases h
    exact ⟨‹_›, rfl, rfl⟩

end Queue

end Newsroom
