import Newsroom.Config.Basic
import Newsroom.Message
import Newsroom.Random.Source
import Newsroom.Tally

/-!
# Producers

A producer writes a fixed number of articles, each of a category that it draws,
and then one end mark.

## Main Definitions

* `Producer` — a producer at work
* `Producer.write` — the next message, when it holds none
* `Producer.handedOver` — what follows when its message is in the queue
* `Producer.report` — how many articles it has written

## Design Notes

A producer holds at most one message.  An article is counted when it is written,
and waits in the producer until there is room in its queue.
-/

namespace Newsroom

/-- Where a producer stands. -/
inductive Producer.Phase where
  /-- It is about to write a message. -/
  | writing
  /-- It holds an article of a category. -/
  | holding (a : Article)
  /-- It holds the end mark. -/
  | closing
  | finished
  deriving DecidableEq, Repr

/-- A producer at work. -/
structure Producer (ρ : Type) where
  /-- Its place in the configuration. -/
  origin : Nat
  id : UInt32
  /-- How many articles it has still to write. -/
  remaining : Nat
  /-- What it draws from. -/
  source : ρ
  /-- How many articles it has written of each category. -/
  emitted : Tally := Tally.zero
  phase : Producer.Phase := .writing
  deriving DecidableEq, Repr

/-- How many articles a producer has written. -/
structure Producer.Report where
  id : UInt32
  emitted : Tally
  deriving DecidableEq, Repr

namespace Producer

variable {ρ α : Type}

/-- A producer before its first article. -/
def ofSpec (origin : Nat) (spec : ProducerSpec) (source : ρ) : Producer ρ :=
  { origin, id := spec.id, remaining := spec.messages.toNat, source }

/-- The name of the thread, and of the queue, of a producer. -/
def name (id : UInt32) : String := s!"producer-{id}"

/-- The next message is written: an article if any remain, or else the end
mark. -/
def write [CategorySource ρ] (p : Producer ρ) : Producer ρ :=
  match p.remaining with
  | 0 => { p with phase := .closing }
  | n + 1 =>
      let (c, source) := CategorySource.draw p.source
      { p with
        remaining := n
        source
        emitted := p.emitted.bump c
        phase := .holding ⟨p.origin, p.id, c, p.emitted.get c⟩ }

/-- The message that a producer holds. -/
def held? [Payload α] (p : Producer ρ) : Option (Message α) :=
  match p.phase with
  | .holding a => some (.item (Payload.ofArticle a))
  | .closing => some .done
  | _ => none

/-- A producer whose message is in the queue. -/
def handedOver (p : Producer ρ) : Producer ρ :=
  match p.phase with
  | .holding _ => { p with phase := .writing }
  | .closing => { p with phase := .finished }
  | _ => p

/-- Whether a producer has ended. -/
def isFinished (p : Producer ρ) : Bool := p.phase = .finished

/-- How many articles a producer has written. -/
def report (p : Producer ρ) : Producer.Report := ⟨p.id, p.emitted⟩

end Producer

end Newsroom
