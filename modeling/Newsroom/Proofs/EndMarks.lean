import Newsroom.Message

/-!
# End marks on a queue

A queue that is filled by some writers, each of which puts in one end mark as the
last thing that it inserts.  Between a producer and the dispatcher, and between the
dispatcher and a co-editor, there is one writer; the screen queue has three.

## Main Definitions

* `Link` — which end marks a queue holds, given how many went in and came out

## Design Notes

Writers are only counted.  That nothing follows the mark of a single writer, and
that nothing follows the last of several marks, is the same fact: once all marks
are in, the queue is empty or ends in a mark.
-/

namespace Newsroom

variable {α : Type}

/-- Messages without an end mark are texts. -/
theorem Message.map_item_bodies {ms : List (Message α)} (h : ms.countP Message.isDone = 0) :
    (ms.filterMap Message.body?).map .item = ms := by
  induction ms with
  | nil => rfl
  | cons m ms ih =>
      cases m with
      | item body => simpa using ih (by simpa using h)
      | done => simp at h

/-- The end marks among the messages of a queue that `writers` writers fill, of
which `sent` have put in their mark, while `received` marks were taken out. -/
structure Link (writers sent received : Nat) (ms : List (Message α)) : Prop where
  sent_le : sent ≤ writers
  /-- No mark is lost. -/
  marks : received + ms.countP Message.isDone = sent
  /-- Nothing follows the last mark. -/
  last : sent = writers → ∀ m ∈ ms.getLast?, m = .done

namespace Link

variable {writers sent received : Nat} {ms : List (Message α)}

/-- A queue to which nothing has happened. -/
theorem empty (writers : Nat) : Link writers 0 0 ([] : List (Message α)) :=
  ⟨Nat.zero_le _, rfl, fun _ m hm => by simp at hm⟩

/-! ### Insertions -/

theorem insert_item (h : Link writers sent received ms) (hopen : sent < writers) (body : α) :
    Link writers sent received (ms ++ [.item body]) where
  sent_le := h.sent_le
  marks := by simpa [List.countP_append] using h.marks
  last := fun hall => absurd hall (by omega)

theorem insert_done (h : Link writers sent received ms) (hopen : sent < writers) :
    Link writers (sent + 1) received (ms ++ [.done]) where
  sent_le := hopen
  marks := by simpa [List.countP_append, ← Nat.add_assoc] using h.marks
  last := fun _ m hm => by simpa using hm.symm

/-! ### Removals -/

/-- A queue without its first message ends as before. -/
private theorem last_of_cons {m : Message α}
    (h : sent = writers → ∀ x ∈ (m :: ms).getLast?, x = .done) :
    sent = writers → ∀ x ∈ ms.getLast?, x = .done := by
  intro hall x hx
  cases ms with
  | nil => simp at hx
  | cons n ns => exact h hall x (by simpa using hx)

theorem remove_item {body : α} (h : Link writers sent received (.item body :: ms)) :
    Link writers sent received ms where
  sent_le := h.sent_le
  marks := by simpa using h.marks
  last := last_of_cons h.last

theorem remove_done (h : Link writers sent received (.done :: ms)) :
    Link writers sent (received + 1) ms where
  sent_le := h.sent_le
  marks := by
    have hmarks := h.marks
    simp only [List.countP_cons, Message.isDone_done, if_true] at hmarks
    omega
  last := last_of_cons h.last

/-! ### What the marks tell -/

theorem received_le (h : Link writers sent received ms) : received ≤ sent := by
  have := h.marks
  omega

/-- When all marks have been taken out nothing else is left. -/
theorem eq_nil (h : Link writers sent received ms) (hall : received = writers) : ms = [] := by
  have hsent : sent = writers := Nat.le_antisymm h.sent_le (hall ▸ h.received_le)
  have hnone : ms.countP Message.isDone = 0 := by
    have := h.marks
    omega
  -- a queue with all marks in it ends in one, but here none is left
  cases hlast : ms.getLast? with
  | none => exact List.getLast?_eq_none_iff.1 hlast
  | some m =>
      have hmem : m ∈ ms := List.mem_of_getLast? hlast
      rw [h.last hsent m hlast] at hmem
      exact absurd rfl (List.countP_eq_zero.1 hnone _ hmem)

/-- If some mark that was sent has not been taken out, the queue is not empty. -/
theorem ne_nil (h : Link writers sent received ms) (hlt : received < sent) : ms ≠ [] := by
  rintro rfl
  have := h.marks
  simp at this
  omega

/-- Before any mark is taken out, the queue holds one exactly if one was put in. -/
theorem done_mem_iff (h : Link writers sent 0 ms) : .done ∈ ms ↔ 0 < sent := by
  have hmarks := h.marks
  rw [Nat.zero_add] at hmarks
  rw [← hmarks, List.countP_pos_iff]
  constructor
  · exact fun hmem => ⟨.done, hmem, rfl⟩
  · rintro ⟨m, hm, hdone⟩
    cases m with
    | item body => cases hdone
    | done => exact hm

/-- A single writer inserts nothing after its mark. -/
theorem eq_nil_of_append (h : Link 1 sent 0 ms) {before after : List (Message α)}
    (hms : ms = before ++ .done :: after) : after = [] := by
  have hmarks := h.marks
  simp only [hms, List.countP_append, List.countP_cons, Message.isDone_done, if_true] at hmarks
  have hsent : sent = 1 := by
    have := h.sent_le
    omega
  have hnone : after.countP Message.isDone = 0 := by omega
  -- otherwise the last message would be a second mark
  rcases List.eq_nil_or_concat after with hnil | ⟨rest, m, rfl⟩
  · exact hnil
  · have hlast : m = .done := h.last hsent m (by simp [hms, List.getLast?_cons])
    exact absurd rfl (List.countP_eq_zero.1 hnone .done (by simp [hlast]))

/-- A single writer that has put in its mark has inserted texts and then the mark. -/
theorem eq_items_append_done (h : Link 1 1 0 ms) :
    ms = (ms.filterMap Message.body?).map .item ++ [.done] := by
  obtain ⟨before, after, hms⟩ := List.append_of_mem (h.done_mem_iff.2 Nat.one_pos)
  cases h.eq_nil_of_append hms
  have hmarks := h.marks
  simp only [hms, List.countP_append, List.countP_singleton, Message.isDone_done, if_true] at hmarks
  have hitems : (before.filterMap Message.body?).map .item = before :=
    Message.map_item_bodies (by omega)
  simp [hms, List.filterMap_append, hitems]

end Link

end Newsroom
