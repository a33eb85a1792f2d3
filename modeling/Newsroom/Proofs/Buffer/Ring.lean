import Newsroom.Buffer.Ring

/-!
# What a ring holds

A ring stands for the list of what its occupied slots hold.  They are a run of slots
that begins at the head, goes on in turn and ends before the tail.

## Main Definitions

* `Ring.Holds` — a ring of some capacity stands for a list

## Main Statements

* `Holds.push?`, `Holds.pop?` — a ring with room takes a message at the end of its
  list, and a ring that is not empty gives the message at the front
* `Holds.contents_eq`, `Holds.occupied_eq` — the list is what is read from the head on,
  and every occupied slot counts

## Design Notes

When the ring is empty and when it is full the head is the tail.  The two are told
apart by the slots, which say of each place whether it is occupied.
-/

namespace Newsroom.Ring

variable {α : Type} {capacity : Nat} {as : List α} {r : Ring α}

/-- A ring with `capacity` slots, of which the first in turn from the head on are
occupied by the entries of a list, and the others are free. -/
structure Holds (capacity : Nat) (as : List α) (r : Ring α) : Prop where
  slots_length : r.slots.length = capacity
  head_lt : r.head < capacity
  length_le : as.length ≤ capacity
  tail_eq : r.tail = (r.head + as.length) % capacity
  slot : ∀ i, i < capacity → r.slots[(r.head + i) % capacity]? = some as[i]?

/-! ### Places in turn -/

/-- The places in turn from a place on, until the last and then from the first on. -/
theorem turn_eq {h i : Nat} (hh : h < capacity) (hi : i < capacity) :
    (h + i) % capacity = if h + i < capacity then h + i else h + i - capacity := by
  split
  · next hlt => exact Nat.mod_eq_of_lt hlt
  · next hge =>
    rw [Nat.mod_eq_sub_mod (by omega)]
    exact Nat.mod_eq_of_lt (by omega)

/-- Less than a whole turn never leads to the same place twice. -/
theorem turn_inj {h i j : Nat} (hh : h < capacity) (hi : i < capacity) (hj : j < capacity)
    (heq : (h + i) % capacity = (h + j) % capacity) : i = j := by
  rw [turn_eq hh hi, turn_eq hh hj] at heq
  split at heq <;> split at heq <;> omega

/-! ### Operations -/

/-- A ring of free slots. -/
theorem holds_empty (hroom : 0 < capacity) : (empty capacity : Ring α).Holds capacity [] where
  slots_length := List.length_replicate
  head_lt := hroom
  length_le := Nat.zero_le _
  tail_eq := (Nat.mod_eq_of_lt hroom).symm
  slot := by
    intro i hi
    have hturn := Nat.mod_lt (0 + i) hroom
    rw [List.getElem?_nil, empty, List.getElem?_replicate, if_pos hturn]

/-- The slot at the tail of a ring with room is free. -/
theorem Holds.tail_free (h : r.Holds capacity as) (hroom : as.length < capacity) :
    r.slots[r.tail]? = some none := by
  rw [h.tail_eq, h.slot _ hroom, List.getElem?_eq_none (Nat.le_refl _)]

/-- The slot at the head of a ring that is not empty is occupied. -/
theorem Holds.head_occupied {a : α} (h : r.Holds capacity (a :: as)) :
    r.slots[r.head]? = some (some a) := by
  have hslot := h.slot 0 (Nat.lt_of_le_of_lt (Nat.zero_le _) h.head_lt)
  rw [Nat.add_zero, Nat.mod_eq_of_lt h.head_lt] at hslot
  exact hslot

/-- A ring with room takes a message at the end of its list. -/
theorem Holds.push? (h : r.Holds capacity as) (hroom : as.length < capacity) (a : α) :
    ∃ r', r.push? a = some r' ∧ r'.Holds capacity (as ++ [a]) := by
  refine ⟨{ r with slots := r.slots.set r.tail (some a), tail := r.next r.tail }, ?_, ?_⟩
  · rw [Ring.push?, h.tail_free hroom]
  refine
    { slots_length := by rw [List.length_set, h.slots_length]
      head_lt := h.head_lt
      length_le := by
        rw [List.length_append, List.length_singleton]
        exact hroom
      tail_eq := ?_
      slot := ?_ }
  · show (r.tail + 1) % r.slots.length = (r.head + (as ++ [a]).length) % capacity
    rw [h.slots_length, h.tail_eq, Nat.mod_add_mod, List.length_append, List.length_singleton,
      Nat.add_assoc]
  · intro i hi
    have hturn : (r.head + i) % capacity < capacity := Nat.mod_lt _ (by omega)
    show (r.slots.set r.tail (some a))[(r.head + i) % capacity]? = _
    rw [List.getElem?_set, h.tail_eq, h.slots_length]
    -- no other place than the old tail is the one in turn after the list
    by_cases hlast : i = as.length
    · subst hlast
      rw [if_pos rfl, if_pos hturn, List.getElem?_concat_length]
    · have hother : (r.head + as.length) % capacity ≠ (r.head + i) % capacity :=
        fun heq => hlast (turn_inj h.head_lt hroom hi heq).symm
      rw [if_neg hother, h.slot i hi]
      by_cases hbefore : i < as.length
      · rw [List.getElem?_append_left hbefore]
      · rw [List.getElem?_eq_none (by omega), List.getElem?_eq_none (by simp; omega)]

/-- A ring with room for some more messages can be given them. -/
theorem Holds.fill (h : r.Holds capacity as) (bs : List α) (hle : (as ++ bs).length ≤ capacity) :
    ∃ r' : Ring α, r'.Holds capacity (as ++ bs) := by
  induction bs generalizing as r with
  | nil => exact ⟨r, by rwa [List.append_nil]⟩
  | cons b bs ih =>
      rw [List.append_cons] at hle ⊢
      have hroom : as.length < capacity := by
        simp only [List.length_append, List.length_singleton] at hle
        omega
      obtain ⟨r', -, hr'⟩ := h.push? hroom b
      exact ih hr' hle

/-- A ring that is not empty gives the message at the front of its list. -/
theorem Holds.pop? {a : α} (h : r.Holds capacity (a :: as)) :
    ∃ r', r.pop? = some (a, r') ∧ r'.Holds capacity as := by
  have hpos : 0 < capacity := Nat.lt_of_le_of_lt (Nat.zero_le _) h.head_lt
  have hle : as.length + 1 ≤ capacity := h.length_le
  refine ⟨{ r with slots := r.slots.set r.head none, head := r.next r.head }, ?_, ?_⟩
  · rw [Ring.pop?, h.head_occupied]
  have hnext : r.next r.head = (r.head + 1) % capacity := by rw [next, h.slots_length]
  refine
    { slots_length := by rw [List.length_set, h.slots_length]
      head_lt := by
        show r.next r.head < capacity
        rw [hnext]
        exact Nat.mod_lt _ hpos
      length_le := Nat.le_of_succ_le hle
      tail_eq := ?_
      slot := ?_ }
  · show r.tail = (r.next r.head + as.length) % capacity
    rw [hnext, Nat.mod_add_mod, h.tail_eq, List.length_cons, Nat.add_assoc, Nat.add_comm 1]
  · intro i hi
    show (r.slots.set r.head none)[(r.next r.head + i) % capacity]? = _
    rw [hnext, Nat.mod_add_mod, Nat.add_assoc, Nat.add_comm 1, List.getElem?_set, h.slots_length]
    by_cases hlast : i + 1 = capacity
    -- after a whole turn stands the slot that was emptied
    · have hwhole : (r.head + (i + 1)) % capacity = r.head := by
        rw [hlast, Nat.add_mod_right, Nat.mod_eq_of_lt h.head_lt]
      rw [hwhole, if_pos rfl, if_pos h.head_lt, List.getElem?_eq_none (by omega)]
    · have hother : r.head ≠ (r.head + (i + 1)) % capacity := by
        intro heq
        have hzero : (r.head + 0) % capacity = (r.head + (i + 1)) % capacity := by
          rw [Nat.add_zero, Nat.mod_eq_of_lt h.head_lt, ← heq]
        exact Nat.succ_ne_zero i (turn_inj h.head_lt hpos (by omega) hzero).symm
      rw [if_neg hother, h.slot (i + 1) (by omega), List.getElem?_cons_succ]

/-! ### Views -/

/-- From the head on stand the entries of the list and then free slots. -/
theorem Holds.fromHead_eq (h : r.Holds capacity as) :
    r.fromHead = as.map some ++ List.replicate (capacity - as.length) none := by
  have hhead : r.head ≤ r.slots.length := h.slots_length ▸ Nat.le_of_lt h.head_lt
  have hle := h.length_le
  apply List.ext_getElem?
  intro i
  by_cases hi : i < capacity
  · have hslot := h.slot i hi
    -- the places before the wrap-around are those of the first part
    have hplace : r.fromHead[i]? = r.slots[(r.head + i) % capacity]? := by
      rw [fromHead, turn_eq h.head_lt hi, List.getElem?_append, List.length_drop, h.slots_length]
      by_cases hwrap : r.head + i < capacity
      · rw [if_pos (by omega), if_pos hwrap, List.getElem?_drop]
      · rw [if_neg (by omega), if_neg hwrap, List.getElem?_take_of_lt (by omega)]
        congr 1
        have := h.head_lt
        omega
    rw [hplace, hslot, List.getElem?_append, List.length_map]
    by_cases hlt : i < as.length
    · rw [if_pos hlt, List.getElem?_map, List.getElem?_eq_getElem hlt]
      rfl
    · rw [if_neg hlt, List.getElem?_eq_none (by omega), List.getElem?_replicate,
        if_pos (by omega)]
  · have hlength : r.fromHead.length = capacity := by
      simp only [fromHead, List.length_append, List.length_drop, List.length_take, h.slots_length]
      have := h.head_lt
      omega
    rw [List.getElem?_eq_none (by omega), List.getElem?_eq_none (by simp; omega)]

/-- What is read from the head on is the list. -/
theorem Holds.contents_eq (h : r.Holds capacity as) : r.contents = as := by
  rw [contents, h.fromHead_eq, List.filterMap_append, List.filterMap_map]
  have hfree : (List.replicate (capacity - as.length) (none : Option α)).filterMap id = [] :=
    List.filterMap_replicate_of_none rfl
  rw [hfree, List.append_nil]
  exact List.filterMap_some

/-- As many slots are occupied as the list has entries. -/
theorem Holds.occupied_eq (h : r.Holds capacity as) : r.occupied = as.length := by
  have hcount : r.fromHead.countP Option.isSome = r.slots.countP Option.isSome := by
    rw [fromHead, List.countP_append, Nat.add_comm, ← List.countP_append, List.take_append_drop]
  have hlisted : (as.map some).countP Option.isSome = as.length := by
    rw [List.countP_map, List.countP_eq_length]
    intro a _
    rfl
  have hfree : (List.replicate (capacity - as.length) (none : Option α)).countP Option.isSome = 0 :=
    List.countP_replicate
  rw [occupied, ← hcount, h.fromHead_eq, List.countP_append, hlisted, hfree, Nat.add_zero]

/-- Exactly the slots from the head on, as many as there are entries, are occupied. -/
theorem Holds.occupied_iff (h : r.Holds capacity as) {i : Nat} (hi : i < capacity) :
    (∃ a, r.slots[(r.head + i) % capacity]? = some (some a)) ↔ i < as.length := by
  rw [h.slot i hi]
  constructor
  · rintro ⟨a, ha⟩
    exact (List.getElem?_eq_some_iff.1 (Option.some.inj ha)).1
  · intro hlt
    exact ⟨as[i], by rw [List.getElem?_eq_getElem hlt]⟩

end Newsroom.Ring
