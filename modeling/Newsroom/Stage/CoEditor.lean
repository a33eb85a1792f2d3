import Newsroom.Message
import Newsroom.Category

/-!
# Co-editors

A co-editor moves the messages of one category to the screen queue, unchanged
and in order, up to and including the first end mark.

## Main Definitions

* `CoEditor` — a co-editor at work
* `CoEditor.took`, `CoEditor.handedOver` — what follows from its two steps
-/

namespace Newsroom

/-- Where a co-editor stands. -/
inductive CoEditor.Phase (α : Type) where
  | waiting
  /-- It edits a message and then waits for room on the screen queue. -/
  | holding (m : Message α)
  | finished
  deriving DecidableEq, Repr

/-- A co-editor at work, with the number of texts that it has forwarded. -/
structure CoEditor (α : Type) where
  phase : CoEditor.Phase α := .waiting
  forwarded : Nat := 0
  deriving DecidableEq, Repr

namespace CoEditor

variable {α : Type}

/-- The name of the thread of a co-editor. -/
def name (c : Category) : String := s!"co-editor-{c.tag}"

/-- The co-editor with a message that it has taken. -/
def took (e : CoEditor α) (m : Message α) : CoEditor α :=
  { e with phase := .holding m }

/-- The co-editor after its message was put into the screen queue. -/
def handedOver (e : CoEditor α) : Message α → CoEditor α
  | .item _ => { phase := .waiting, forwarded := e.forwarded + 1 }
  | .done => { e with phase := .finished }

end CoEditor

end Newsroom
