import Newsroom.Buffer.Basic
import Newsroom.Message

/-!
# Sessions at a buffer

One caller that uses a buffer step by step and may have one thread at work on it
at the same time.

## Main Definitions

* `Session` — a buffer and the thread that was started at it
* `Session.Request`, `Session.Answer` — the steps of a session
* `Session.machine` — the buffer with the caller and the thread
* `Session.step` — the answer to a step
* `fanIn` — several threads insert, and the caller removes everything

## Design Notes

The caller is the first thread of the machine, which runs after each step until no
thread can go on.  An operation that has not come to its end by then would block:
the caller is told so, and the session stays as it was.
-/

namespace Newsroom.Buffer

variable {α : Type}

/-- What a started thread does. -/
inductive Background where
  | inserting
  | removing
  deriving DecidableEq, Repr

/-- A buffer and the thread that a caller has started at it. -/
structure Session (α : Type) where
  buffer : Buffer α
  background : Option (Background × Thread α)
  deriving DecidableEq, Repr

namespace Session

/-- What the caller can do. -/
inductive Request (α : Type) where
  | insert (a : α)
  | remove
  | tryRemove
  /-- Start a thread that inserts messages. -/
  | startInserting (messages : List α)
  /-- Start a thread that removes a number of messages. -/
  | startRemoving (n : Nat)
  /-- Wait for the thread that was started. -/
  | join
  deriving DecidableEq, Repr

/-- What the caller learns. -/
inductive Answer (α : Type) where
  | ok
  | message (a : α)
  /-- There was nothing to remove, or no thread to wait for. -/
  | none
  | wouldBlock
  /-- Another thread is at work. -/
  | busy
  | started
  | joined
  | messages (as : List α)
  deriving DecidableEq, Repr

/-- A session at an empty buffer. -/
def start (name : String) (capacity : Nat) : Except PipelineFault (Session α) :=
  (Buffer.make name capacity).map fun buffer => { buffer, background := .none }

/-! ### The machine -/

/-- The buffer with the caller and the thread that was started. -/
def machine (s : Session α) (caller : Thread α) : State α :=
  ⟨s.buffer, caller :: (s.background.map Prod.snd).toList⟩

/-- The session after its machine has come to a state. -/
def after (s : Session α) (state : State α) : Session α :=
  { buffer := state.buffer
    background := s.background.map fun b => (b.1, state.threads[1]?.getD b.2) }

/-! ### Answers -/

/-- The answer to an operation, by what came of it. -/
def Answer.ofEffect : Effect α → Answer α
  | .inserted => .ok
  | .removed a => .message a
  | .empty => .none

/-- The messages that a thread has removed. -/
def removed (t : Thread α) : List α :=
  t.effects.filterMap fun
    | .removed a => some a
    | _ => .none

/-- What the caller learns of a thread that has ended. -/
def Answer.ofThread : Background → Thread α → Answer α
  | .inserting, _ => .joined
  | .removing, t => .messages (removed t)

/-- Whether a thread that does some kind of operation has to be joined before a request. -/
def Request.isRefusedBy : Request α → Background → Bool
  | .insert _, kind => kind = .inserting
  | .remove, kind => kind = .removing
  | .join, _ => false
  | _, _ => true

/-- Whether the thread that was started has to be joined before a request. -/
def refuses (s : Session α) (r : Request α) : Bool :=
  s.background.any fun b => r.isRefusedBy b.1

/-- The caller does one operation. -/
def perform (s : Session α) (op : Operation α) : Session α × Answer α :=
  let state := drive (s.machine { program := [op] })
  match state.threads.head?.bind fun t => t.effects.head? with
  | some e => (s.after state, .ofEffect e)
  | .none => (s, .wouldBlock)

/-- A thread is started. -/
def launch (s : Session α) (kind : Background) (program : List (Operation α)) :
    Session α × Answer α :=
  let s := { s with background := some (kind, { program }) }
  (s.after (drive (s.machine { program := [] })), .started)

/-- The caller waits for the thread that was started. -/
def join (s : Session α) : Session α × Answer α :=
  match s.background with
  | .none => (s, .none)
  | some (kind, t) =>
      if t.isFinished then ({ s with background := .none }, .ofThread kind t)
      else (s, .wouldBlock)

/-- The answer to a request and the session after it. -/
def step (s : Session α) (r : Request α) : Session α × Answer α :=
  if s.refuses r then (s, .busy)
  else
    match r with
    | .insert a => s.perform (.insert a)
    | .remove => s.perform .remove
    | .tryRemove => s.perform .tryRemove
    | .startInserting messages => s.launch .inserting (messages.map .insert)
    | .startRemoving n => s.launch .removing (List.replicate n .remove)
    | .join => s.join

end Session

/-! ### Fan-in -/

/-- Threads that insert, and a caller that removes as many messages as they
insert: what the caller has removed, in order, and the buffer after it. -/
def fanIn (buffer : Buffer α) (streams : List (List α)) : List α × Buffer α :=
  let total := exactSum (streams.map List.length)
  let caller : Thread α := { program := List.replicate total .remove }
  let state := drive ⟨buffer, caller :: streams.map fun as => { program := as.map .insert }⟩
  (((state.threads.head?).map Session.removed).getD [], state.buffer)

end Newsroom.Buffer
