import Newsroom.Semaphore.Threads

/-!
# Sessions at a semaphore

One caller that uses a semaphore step by step and may start threads that wait
for permits.

## Main Definitions

* `Session` — the caller with the waiting threads it has started
* `Session.Request`, `Session.Answer` — the steps of a session
* `Session.machine` — the semaphore with the caller and the waiting threads
* `Session.step` — the answer to a step

## Design Notes

The caller is the first thread of the machine and the waiting threads are the
others.  After each step the machine runs until no thread can go on.  An operation
that has not come to its end by then would block: the caller is told so, and the
session stays as it was.
-/

namespace Newsroom.Semaphore

open Threads

/-- A semaphore with its caller and the threads it has started. -/
structure Session where
  state : State
  deriving DecidableEq, Repr

namespace Session

/-- What the caller can do. -/
inductive Request where
  | tryAcquire
  | acquire
  | release
  /-- Start a thread that takes one permit. -/
  | startWaiter
  /-- Wait for all threads that were started. -/
  | join
  deriving DecidableEq, Repr

/-- What the caller learns. -/
inductive Answer where
  | ok
  | held (b : Bool)
  | wouldBlock
  /-- Others are waiting. -/
  | busy
  /-- The thread would not have to wait. -/
  | notEmpty
  | started
  | joined (n : Nat)
  | overflow
  deriving DecidableEq, Repr

/-- A session at a semaphore with some permits. -/
def start (permits : Nat) : Session :=
  ⟨⟨⟨permits⟩, [{ program := [] }]⟩⟩

/-- The threads that the caller has started. -/
def waiters (s : Session) : List Thread := s.state.threads.tail

/-- The semaphore with the caller and the threads that it has started. -/
def machine (s : Session) (caller : Thread) : State :=
  { s.state with threads := caller :: s.waiters }

/-- What came of an operation of the caller, once all threads have gone on as far as they
can, with the session after it. -/
def perform (s : Session) (op : Operation) : Session × Option Effect :=
  let state := drive (s.machine { program := [op] })
  (⟨state⟩, state.threads.head?.bind fun t => t.effects.head?)

/-- The answer to a request and the session after it. -/
def step (s : Session) : Request → Session × Answer
  | .tryAcquire =>
      if !s.waiters.isEmpty then (s, .busy)
      else
        let (s', e) := s.perform .tryAcquire
        (s', .held (e = some .acquired))
  | .acquire =>
      if !s.waiters.isEmpty then (s, .busy)
      else
        match s.perform .acquire with
        | (s', some _) => (s', .ok)
        | (_, none) => (s, .wouldBlock)
  | .release =>
      let (s', e) := s.perform .release
      (s', if e = some .overflowed then .overflow else .ok)
  | .startWaiter =>
      if s.waiters.isEmpty && s.state.semaphore.permits != 0 then (s, .notEmpty)
      else
        let waiter : Thread := { program := [.acquire] }
        (⟨drive { s.state with threads := s.state.threads ++ [waiter] }⟩, .started)
  | .join =>
      if s.waiters.all Thread.isFinished then
        (⟨{ s.state with threads := s.state.threads.take 1 }⟩, .joined s.waiters.length)
      else (s, .wouldBlock)

/-- The answers to requests in turn. -/
def answers (s : Session) : List Request → List Answer
  | [] => []
  | r :: rs => (s.step r).2 :: answers (s.step r).1 rs

end Session

end Newsroom.Semaphore
