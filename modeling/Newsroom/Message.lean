import Newsroom.Article

/-!
# Messages

What travels through the queues of the newsroom.

## Main Definitions

* `Message` — a body, or the mark that no more bodies follow
* `Message.text` — the line of a message
-/

namespace Newsroom

/-- A body, or the end of a stream. -/
inductive Message (α : Type) where
  | item (body : α)
  | done
  deriving DecidableEq, Repr, Inhabited

namespace Message

variable {α : Type}

/-- The line that stands for the end of a stream. -/
def doneText : String := "DONE"

/-- The line of a message. -/
def text [Payload α] : Message α → String
  | item body => Payload.text body
  | done => doneText

/-- Whether a message ends its stream. -/
def isDone : Message α → Bool
  | item _ => false
  | done => true

/-- The body of a message that has one. -/
def body? : Message α → Option α
  | item body => some body
  | done => none

@[simp] theorem isDone_item (body : α) : (item body).isDone = false := rfl

@[simp] theorem isDone_done : (done : Message α).isDone = true := rfl

@[simp] theorem body?_item (body : α) : (item body).body? = some body := rfl

@[simp] theorem body?_done : (done : Message α).body? = none := rfl

end Message

end Newsroom
