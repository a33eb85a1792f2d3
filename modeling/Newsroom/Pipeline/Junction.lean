import Newsroom.Buffer.Basic
import Newsroom.Stage.Dispatcher

/-!
# A dispatcher among threads

A dispatcher between buffers that other threads fill and empty, in the steps that each of them
takes at a semaphore and under a lock.

## Main Definitions

* `Port` — a buffer with a name, and the number of its messages as it is read without the lock
* `Port.act?`, `Port.call?` — a step of a thread at a port, and of the dispatcher
* `Junction` — a dispatcher with its sources and with the buffers of the categories
* `Junction.act?` — a step of the dispatcher or of another thread, with what it does

## Design Notes

On a floor each operation on a queue is a single step.  Here it is those steps that a thread
takes at a buffer, between which others may take theirs.  The dispatcher is the first thread
of every port, and goes on only when its operation has returned.

A thread that has changed the ring keeps the lock until it has also changed the number of the
messages.  Whoever reads this number without the lock may do so between the two.
-/

namespace Newsroom

/-- A buffer with a name, and the threads that use it.  The first of them is that of the
dispatcher. -/
structure Port (α : Type) where
  name : String
  state : Buffer.State (Message α)
  /-- The number of the messages, as it is read without the lock. -/
  hint : Nat := 0
  /-- The thread that has the lock, after it has changed the ring. -/
  locked : Option Nat := none
  deriving DecidableEq, Repr

/-- A dispatcher with the buffers around it. -/
structure Junction (α : Type) where
  sources : List (Port α)
  categories : ByCategory (Port α)
  dispatcher : Dispatcher α
  /-- What was reported so far. -/
  events : List Event := []
  deriving DecidableEq, Repr

namespace Port

variable {α : Type}

/-- What a thread does at a port. -/
inductive Act (α : Type) where
  /-- It does something with the buffer. -/
  | does (x : Buffer.Act (Message α))
  /-- It changes the number of the messages and gives the lock back. -/
  | counts
  deriving DecidableEq, Repr

/-- Whether something is done to the ring, for which the lock is needed. -/
def needsLock : Buffer.Act (Message α) → Bool
  | .push _ => true
  | .pop _ => true
  | _ => false

/-- What a thread has found that tried to take a message, if this has returned. -/
def Act.found? : Act α → Option (Option (Message α))
  | does .refuse => some none
  | does (.returnRemove m) => some (some m)
  | _ => none

/-- The number of the messages after a thread has changed it. -/
def counted (p : Port α) (j : Nat) : Nat :=
  match p.state.threads[j]?.map Buffer.Thread.phase with
  | some .pushed => p.hint + 1
  | some (.popped _) => p.hint - 1
  | _ => p.hint

/-- A step of a thread, with what it does.  The ring is left alone while another thread has the
lock. -/
def act? (p : Port α) (j : Nat) : Option (Act α × Port α) :=
  if p.locked = some j then some (.counts, { p with hint := p.counted j, locked := none })
  else
    (Buffer.act? p.state j).bind fun r =>
      if needsLock r.1 then
        if p.locked = none then some (.does r.1, { p with state := r.2, locked := some j })
        else none
      else some (.does r.1, { p with state := r.2 })

/-- The dispatcher is about to do an operation. -/
def begin (p : Port α) (op : Buffer.Operation (Message α)) : Port α :=
  { p with
    state :=
      { p.state with threads := p.state.threads.modify 0 fun t => { t with program := [op] } } }

/-- A step of the dispatcher with an operation, which it begins if it is ready. -/
def call? (p : Port α) (op : Buffer.Operation (Message α)) : Option (Act α × Port α) :=
  (p.begin op).act? 0

end Port

namespace Junction

variable {α : Type}

/-- What can happen at a junction. -/
inductive Move where
  | dispatcher
  /-- A thread other than that of the dispatcher takes a step at a source. -/
  | source (i j : Nat)
  /-- A thread other than that of the dispatcher takes a step at the buffer of a category. -/
  | category (c : Category) (j : Nat)
  deriving DecidableEq, Repr

/-- What a step at a junction does. -/
inductive Act (α : Type) where
  /-- A thread does something at a source. -/
  | source (i : Nat) (thread : Nat) (x : Port.Act α)
  /-- A thread does something at the buffer of a category. -/
  | category (c : Category) (thread : Nat) (x : Port.Act α)
  /-- The dispatcher sees whether a source is empty. -/
  | check (i : Nat) (empty : Bool)
  deriving DecidableEq, Repr

/-- A source after a step. -/
def setSource (s : Junction α) (i : Nat) (p : Port α) : Junction α :=
  { s with sources := s.sources.set i p }

/-- The buffer of a category after a step. -/
def setCategory (s : Junction α) (c : Category) (p : Port α) : Junction α :=
  { s with categories := s.categories.set c p }

/-- The dispatcher goes on, with reports. -/
def goOn (s : Junction α) (r : Dispatcher α × List Event) : Junction α :=
  { s with dispatcher := r.1, events := s.events ++ r.2 }

/-- The dispatcher tries to take a message from a source. -/
def poll? [Payload α] (s : Junction α) (i : Nat) : Option (Act α × Junction α) :=
  s.sources[i]?.bind fun p =>
    (p.call? .tryRemove).map fun r =>
      (.source i 0 r.1,
        match r.1.found? with
        | some m => (s.setSource i r.2).goOn (s.dispatcher.polled i p.name m)
        | none => s.setSource i r.2)

/-- The dispatcher puts a message into the buffer of a category, and goes on after that. -/
def put? (s : Junction α) (c : Category) (m : Message α) (next : Dispatcher α × List Event) :
    Option (Act α × Junction α) :=
  ((s.categories.get c).call? (.insert m)).map fun r =>
    (.category c 0 r.1,
      match r.1 with
      | .does .returnInsert => (s.setCategory c r.2).goOn next
      | _ => s.setCategory c r.2)

/-- A step of the dispatcher, if it need not wait, with what it does. -/
def dispatch? [Payload α] (s : Junction α) : Option (Act α × Junction α) :=
  match s.dispatcher.phase with
  | .polling i => s.poll? i
  | .routing i c body => s.put? c (.item body) (s.dispatcher.routed i c, [])
  | .checking i =>
      s.sources[i]?.map fun p =>
        (.check i (p.hint == 0), s.goOn (s.dispatcher.checked i (p.hint == 0), []))
  | .closing c cs => s.put? c .done (s.dispatcher.closed cs)
  | .finished => none

/-- A step at a junction, with what it does. -/
def act? [Payload α] (s : Junction α) : Move → Option (Act α × Junction α)
  | .dispatcher => s.dispatch?
  | .source i j =>
      s.sources[i]?.bind fun p =>
        (p.act? (j + 1)).map fun r => (.source i (j + 1) r.1, s.setSource i r.2)
  | .category c j =>
      ((s.categories.get c).act? (j + 1)).map fun r =>
        (.category c (j + 1) r.1, s.setCategory c r.2)

end Junction

end Newsroom
