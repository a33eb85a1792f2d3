import Newsroom.Buffer.Ring
import Newsroom.Error
import Newsroom.Schedule
import Newsroom.Semaphore.Basic

/-!
# Bounded buffers

A ring that several threads fill and empty.  One semaphore counts the free slots
and another the filled ones; a thread takes a permit of the one, changes the ring
under its lock, and gives back a permit of the other.

## Main Definitions

* `Buffer` — a ring, its two semaphores and the number of its messages
* `Buffer.Operation`, `Buffer.Effect` — what a thread does with a buffer
* `Buffer.Phase` — how far a thread has come with an operation
* `Buffer.State`, `Buffer.step?` — the machine of a buffer and its threads
* `Buffer.Act` — what a step of the machine does, for histories

## Design Notes

An operation takes three steps: a permit is taken, the ring is changed together
with the number of messages, and a permit of the other kind is given back.  A
thread without a permit waits, except in `tryRemove`, which ends.
-/

namespace Newsroom

/-- A ring shared by several threads. -/
structure Buffer (α : Type) where
  ring : Ring α
  /-- Permits to fill a slot. -/
  writeSlots : Semaphore
  /-- Permits to empty a slot. -/
  readSlots : Semaphore
  /-- The number of messages, which may be read without the lock. -/
  len : Nat
  deriving DecidableEq, Repr

namespace Buffer

variable {α : Type}

/-- An empty buffer. -/
def empty (capacity : Nat) : Buffer α :=
  ⟨Ring.empty capacity, ⟨capacity⟩, ⟨0⟩, 0⟩

/-- An empty buffer with a name, which needs room for a message. -/
def make (name : String) (capacity : Nat) : Except PipelineFault (Buffer α) :=
  if capacity = 0 then .error (.zeroCapacity name) else .ok (empty capacity)

/-! ### Threads -/

/-- What a thread does with a buffer. -/
inductive Operation (α : Type) where
  | insert (a : α)
  | remove
  | tryRemove
  deriving DecidableEq, Repr

/-- What came of an operation. -/
inductive Effect (α : Type) where
  | inserted
  | removed (a : α)
  /-- Nothing could be removed. -/
  | empty
  deriving DecidableEq, Repr

/-- How far a thread has come with its first operation. -/
inductive Phase (α : Type) where
  | ready
  /-- It holds a permit of the kind the operation needs. -/
  | permitted
  /-- It has filled a slot and not given back a permit to empty it. -/
  | pushed
  /-- It has emptied a slot and not given back a permit to fill it. -/
  | popped (a : α)
  deriving DecidableEq, Repr

/-- A thread: what it has still to do, how far it has come with the first of
that, and what came of what it did. -/
structure Thread (α : Type) where
  program : List (Operation α)
  phase : Phase α := .ready
  effects : List (Effect α) := []
  deriving DecidableEq, Repr

/-- A thread that has done its first operation. -/
def Thread.done (t : Thread α) (o : Effect α) : Thread α :=
  { program := t.program.tail, phase := .ready, effects := t.effects ++ [o] }

/-- Whether a thread has nothing more to do. -/
def Thread.isFinished (t : Thread α) : Bool := t.program.isEmpty

/-- A buffer and the threads that use it. -/
structure State (α : Type) where
  buffer : Buffer α
  threads : List (Thread α)
  deriving DecidableEq, Repr

/-- What a step does. -/
inductive Act (α : Type) where
  /-- A permit is taken. -/
  | permit
  /-- No permit was there and the thread does not wait. -/
  | refuse
  | push (a : α)
  | pop (a : α)
  /-- An insertion is complete. -/
  | returnInsert
  /-- A removal is complete. -/
  | returnRemove (a : α)
  deriving DecidableEq, Repr

/-! ### Steps -/

/-- A permit to fill a slot is taken. -/
def takeWrite? (b : Buffer α) : Option (Buffer α) :=
  b.writeSlots.acquire?.map fun s => { b with writeSlots := s }

/-- A permit to empty a slot is taken. -/
def takeRead? (b : Buffer α) : Option (Buffer α) :=
  b.readSlots.acquire?.map fun s => { b with readSlots := s }

/-- A slot is filled under the lock. -/
def push? (b : Buffer α) (a : α) : Option (Buffer α) :=
  (b.ring.push? a).map fun r => { b with ring := r, len := b.len + 1 }

/-- A slot is emptied under the lock. -/
def pop? (b : Buffer α) : Option (α × Buffer α) :=
  b.ring.pop?.map fun r => (r.1, { b with ring := r.2, len := b.len - 1 })

/-- A permit to empty a slot is given back. -/
def giveRead? (b : Buffer α) : Option (Buffer α) :=
  b.readSlots.release.toOption.map fun s => { b with readSlots := s }

/-- A permit to fill a slot is given back. -/
def giveWrite? (b : Buffer α) : Option (Buffer α) :=
  b.writeSlots.release.toOption.map fun s => { b with writeSlots := s }

/-- The next step of a thread, if it need not wait: what it does, and the buffer
and the thread after it. -/
def threadStep? (b : Buffer α) (t : Thread α) : Option (Act α × Buffer α × Thread α) :=
  match t.phase, t.program with
  | .ready, .insert _ :: _ =>
      b.takeWrite?.map fun b => (.permit, b, { t with phase := .permitted })
  | .ready, .remove :: _ =>
      b.takeRead?.map fun b => (.permit, b, { t with phase := .permitted })
  | .ready, .tryRemove :: _ =>
      match b.takeRead? with
      | some b => some (.permit, b, { t with phase := .permitted })
      | none => some (.refuse, b, t.done .empty)
  | .permitted, .insert a :: _ =>
      (b.push? a).map fun b => (.push a, b, { t with phase := .pushed })
  | .permitted, _ :: _ =>
      b.pop?.map fun r => (.pop r.1, r.2, { t with phase := .popped r.1 })
  | .pushed, _ :: _ =>
      b.giveRead?.map fun b => (.returnInsert, b, t.done .inserted)
  | .popped a, _ :: _ =>
      b.giveWrite?.map fun b => (.returnRemove a, b, t.done (.removed a))
  | _, [] => none

/-- A step of a thread, with what it does. -/
def act? (s : State α) (i : Nat) : Option (Act α × State α) :=
  (s.threads[i]?.bind (threadStep? s.buffer)).map fun r =>
    (r.1, ⟨r.2.1, s.threads.set i r.2.2⟩)

/-- The state after a step of a thread. -/
def step? (s : State α) (i : Nat) : Option (State α) :=
  (act? s i).map Prod.snd

/-- What threads do when they step in a given order, with the state after it. -/
def trace? (s : State α) : List Nat → Option (List (Nat × Act α) × State α)
  | [] => some ([], s)
  | i :: is =>
      (act? s i).bind fun r => (trace? r.2 is).map fun rs => ((i, r.1) :: rs.1, rs.2)

/-! ### A schedule -/

/-- How many steps a thread may still take. -/
def Thread.work (t : Thread α) : Nat :=
  3 * t.program.length -
    match t.phase with
    | .ready => 0
    | .permitted => 1
    | .pushed => 2
    | .popped _ => 2

/-- A bound of the steps that can still be taken. -/
def State.work (s : State α) : Nat :=
  exactSum (s.threads.map Thread.work)

/-- All threads in turn until none of them can go on. -/
def drive (s : State α) : State α :=
  Schedule.settle step? State.work 3 (List.range s.threads.length) s

end Buffer

end Newsroom
