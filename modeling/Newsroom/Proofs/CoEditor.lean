import Newsroom.Proofs.EndMarks
import Newsroom.Stage.CoEditor

/-!
# A co-editor between two steps

## Main Definitions

* `Message.beforeMark` — the texts before the first end mark
* `CoEditor.received`, `CoEditor.sent` — the end marks that it has taken and handed
  on
* `CoEditor.held` — the message in its hands
* `CoEditor.Forwarding` — where it stands in its input

## Main Statements

* `Forwarding.took`, `Forwarding.handedOver` — what its two steps do with the input
* `Forwarding.finished` — what is left of the input in the end
-/

namespace Newsroom

variable {α : Type}

/-- The texts before the first end mark. -/
def Message.beforeMark (ms : List (Message α)) : List α :=
  (ms.takeWhile fun m => !m.isDone).filterMap body?

theorem Message.beforeMark_append (texts : List α) (rest : List (Message α)) :
    beforeMark (texts.map .item ++ .done :: rest) = texts := by
  induction texts with
  | nil => rfl
  | cons text texts ih => simpa [beforeMark] using ih

namespace CoEditor

/-- The end marks that a co-editor has taken. -/
def received (e : CoEditor α) : Nat :=
  match e.phase with
  | .holding .done => 1
  | .finished => 1
  | _ => 0

/-- The end marks that a co-editor has handed on. -/
def sent (e : CoEditor α) : Nat :=
  match e.phase with
  | .finished => 1
  | _ => 0

/-- The messages in the hands of a co-editor. -/
def held (e : CoEditor α) : List (Message α) :=
  match e.phase with
  | .holding m => [m]
  | _ => []

theorem sent_le_one (e : CoEditor α) : e.sent ≤ 1 := by
  unfold sent
  split <;> decide

/-- A co-editor that is not finished still owes an end mark. -/
theorem sent_eq_zero {e : CoEditor α} (h : e.phase ≠ .finished) : e.sent = 0 := by
  unfold sent
  split
  · contradiction
  · rfl

theorem held_handedOver (e : CoEditor α) {m : Message α} (h : e.phase = .holding m) :
    e.held = [m] ∧ (e.handedOver m).held = [] := by
  refine ⟨by simp [held, h], ?_⟩
  cases m <;> rfl

/-! ### The input -/

/-- What the co-editor has handed on, what it holds and what is left make up its input. -/
structure Forwarding (input : List (Message α)) (e : CoEditor α) (sent left : List (Message α)) :
    Prop where
  input : input = sent ++ e.held ++ left
  forwarded : e.forwarded = (sent.filterMap Message.body?).length
  marks : Link 1 e.sent 0 sent

namespace Forwarding

variable {input sent left : List (Message α)} {e : CoEditor α} {m : Message α}

theorem start (input : List (Message α)) : Forwarding input {} [] input where
  input := rfl
  forwarded := rfl
  marks := Link.empty 1

theorem took (h : Forwarding input e sent (m :: left)) (hphase : e.phase = .waiting) :
    Forwarding input (e.took m) sent left where
  input := by
    rw [h.input]
    simp [held, CoEditor.took, hphase]
  forwarded := h.forwarded
  marks := by
    have hmarks := h.marks
    rwa [sent_eq_zero (by simp [hphase])] at hmarks

theorem handedOver (h : Forwarding input e sent left) (hphase : e.phase = .holding m) :
    Forwarding input (e.handedOver m) (sent ++ [m]) left := by
  obtain ⟨hheld, hnone⟩ := held_handedOver e hphase
  have hmarks := h.marks
  rw [sent_eq_zero (by simp [hphase])] at hmarks
  refine
    { input := by rw [h.input, hheld, hnone, List.append_nil]
      forwarded := ?_
      marks := ?_ }
  · cases m <;> simp [CoEditor.handedOver, h.forwarded, List.filterMap_append, List.filterMap_cons]
  · cases m with
    | item body => exact hmarks.insert_item Nat.one_pos body
    | done => exact hmarks.insert_done Nat.one_pos

/-- A co-editor that waits has not yet met an end mark. -/
theorem left_ne_nil (h : Forwarding input e sent left) (hphase : e.phase = .waiting)
    (hdone : .done ∈ input) : left ≠ [] := by
  rintro rfl
  have hmarks := h.marks
  rw [sent_eq_zero (by simp [hphase])] at hmarks
  rw [h.input, held, hphase, List.append_nil, List.append_nil] at hdone
  exact absurd (hmarks.done_mem_iff.1 hdone) (Nat.lt_irrefl 0)

/-- A co-editor that has finished has handed on its input up to the first end mark. -/
theorem finished (h : Forwarding input e sent left) (hphase : e.phase = .finished) :
    sent = (Message.beforeMark input).map .item ++ [.done] ∧
      input = (Message.beforeMark input).map .item ++ .done :: left ∧
      e.forwarded = (Message.beforeMark input).length := by
  have hmarks := h.marks
  rw [CoEditor.sent, hphase] at hmarks
  have hsent := hmarks.eq_items_append_done
  have hinput : input = (sent.filterMap Message.body?).map .item ++ .done :: left := by
    have hsplit := h.input
    rw [held, hphase, hsent] at hsplit
    simpa using hsplit
  have hbefore : Message.beforeMark input = sent.filterMap Message.body? := by
    rw [hinput, Message.beforeMark_append]
  rw [hbefore]
  exact ⟨hsent, hinput, h.forwarded⟩

end Forwarding

end CoEditor

end Newsroom
