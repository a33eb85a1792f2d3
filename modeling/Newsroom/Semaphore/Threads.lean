import Newsroom.Schedule
import Newsroom.Semaphore.Basic

/-!
# Threads at a semaphore

Any number of threads that take and give back permits of one semaphore.  A
thread that finds no permit goes to sleep; one that has given a permit back wakes
a sleeper afterwards, in a step of its own.

## Main Definitions

* `Operation`, `Effect` — what a thread does, and what comes of it
* `Phase` — where a thread stands between two steps
* `State`, `Move`, `step?` — the machine
* `drive` — all threads in turn until none can go on

## Design Notes

A step is a section in which the thread holds the lock of the count.  Going to
sleep gives the lock up in the same step.  A sleeper may also wake for no reason;
whoever wakes looks at the count again.  A thread whose `release` fails stops;
it may go on with its program if the failure is caught.
-/

namespace Newsroom.Semaphore.Threads

/-- What a thread does with the semaphore. -/
inductive Operation where
  | acquire
  | tryAcquire
  | release
  deriving DecidableEq, Repr

/-- What came of an operation. -/
inductive Effect where
  | acquired
  /-- No permit was left and the thread did not wait. -/
  | refused
  | released
  | overflowed
  deriving DecidableEq, Repr

/-- Where a thread stands. -/
inductive Phase where
  | ready
  /-- It sleeps until it is woken. -/
  | asleep
  /-- It was woken and has not looked at the count again. -/
  | woken
  /-- It has given back a permit and not woken anyone yet. -/
  | notifying
  /-- A release has failed. -/
  | failed
  deriving DecidableEq, Repr

/-- A thread: what it has still to do, where it stands and what came of what it
did.  A sleeping thread has its `acquire` still to do. -/
structure Thread where
  program : List Operation
  phase : Phase := .ready
  effects : List Effect := []
  deriving DecidableEq, Repr

/-- A thread that has done its first operation. -/
def Thread.done (t : Thread) (o : Effect) (phase : Phase := .ready) : Thread :=
  { program := t.program.tail, phase, effects := t.effects ++ [o] }

/-- Whether a thread has nothing more to do. -/
def Thread.isFinished (t : Thread) : Bool :=
  t.program.isEmpty && t.phase = .ready

/-- The semaphore and the threads that use it. -/
structure State where
  semaphore : Semaphore
  threads : List Thread
  deriving DecidableEq, Repr

/-- A step that some thread may take. -/
inductive Move where
  /-- A thread holds the lock. -/
  | lock (i : Nat)
  /-- A thread wakes a sleeper, or nobody if there is none. -/
  | wake (i : Nat) (sleeper : Option Nat)
  /-- A sleeper wakes for no reason. -/
  | stir (i : Nat)
  /-- The failure of a thread is caught. -/
  | recover (i : Nat)
  deriving DecidableEq, Repr

/-- A thread tries to take a permit, and sleeps if there is none. -/
def lockAcquire (s : Semaphore) (t : Thread) : Semaphore × Thread :=
  match s.acquire? with
  | some s' => (s', t.done .acquired)
  | none => (s, { t with phase := .asleep })

/-- What a thread does while it holds the lock. -/
def lock? (s : Semaphore) (t : Thread) : Option (Semaphore × Thread) :=
  match t.phase, t.program with
  | .ready, .acquire :: _ => some (lockAcquire s t)
  | .woken, .acquire :: _ => some (lockAcquire s t)
  | .ready, .tryAcquire :: _ =>
      match s.acquire? with
      | some s' => some (s', t.done .acquired)
      | none => some (s, t.done .refused)
  | .ready, .release :: _ =>
      match s.release with
      | .ok s' => some (s', t.done .released .notifying)
      | .error _ => some (s, t.done .overflowed .failed)
  | _, _ => none

/-- The threads with one of them in another phase, if it is in a given one. -/
def moveFrom? (ts : List Thread) (i : Nat) (before after : Phase) : Option (List Thread) :=
  match ts[i]? with
  | some t => if t.phase = before then some (ts.set i { t with phase := after }) else none
  | none => none

/-- The state after a step, if it is possible. -/
def step? (s : State) : Move → Option State
  | .lock i =>
      (s.threads[i]?.bind (lock? s.semaphore)).map fun r => ⟨r.1, s.threads.set i r.2⟩
  | .wake i (some j) =>
      ((moveFrom? s.threads i .notifying .ready).bind fun ts => moveFrom? ts j .asleep .woken).map
        fun ts => { s with threads := ts }
  | .wake i none =>
      if s.threads.any fun t => t.phase = .asleep then none
      else (moveFrom? s.threads i .notifying .ready).map fun ts => { s with threads := ts }
  | .stir i => (moveFrom? s.threads i .asleep .woken).map fun ts => { s with threads := ts }
  | .recover i => (moveFrom? s.threads i .failed .ready).map fun ts => { s with threads := ts }

/-! ### A schedule -/

/-- How many steps a thread may still take, when nobody wakes for no reason. -/
def Thread.work (t : Thread) : Nat :=
  3 * t.program.length +
    match t.phase with
    | .ready => 1
    | .asleep => 0
    | .woken => 1
    | .notifying => 3
    | .failed => 2

/-- A bound of the steps that can still be taken. -/
def State.work (s : State) : Nat :=
  exactSum (s.threads.map Thread.work)

/-- The first sleeper. -/
def State.sleeper? (s : State) : Option Nat :=
  s.threads.findIdx? fun t => t.phase = .asleep

/-- The moves that thread `i` may be able to make by itself. -/
def State.movesOf (s : State) (i : Nat) : List Move :=
  [.lock i, .wake i s.sleeper?, .recover i]

/-- The state after the first possible step of a thread. -/
def advance? (s : State) (i : Nat) : Option State :=
  (s.movesOf i).findSome? (step? s)

/-- All threads in turn until none of them can go on. -/
def drive (s : State) : State :=
  Schedule.settle advance? State.work 4 (List.range s.threads.length) s

end Newsroom.Semaphore.Threads
