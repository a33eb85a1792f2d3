import Mathlib.Data.List.Induction
import Mathlib.Data.List.Perm.Basic
import Mathlib.Data.Nat.Init

/-!
# Lists that are taken in rounds

Several lists from which one entry after the other is taken: in each round one of every list
that has any left, in the order of the lists.

## Main Definitions

* `Rounds.row` — the entries of a round
* `Rounds.inTurn` — all entries, round after round
* `Rounds.before` — the entries that come before a place of a round
* `Rounds.Progress` — what is left of the lists, and what was taken, before a place of a round

## Main Statements

* `Progress.start`, `Progress.take`, `Progress.skip`, `Progress.wrap` — from place to place
* `Progress.mem`, `Progress.untaken` — what was taken is of the lists, and what was not is left
* `Progress.complete` — when nothing is left the entries were taken in turn
* `inTurn_perm` — every entry has its turn once
-/

namespace Newsroom.Rounds

variable {β : Type} {ls items : List (List β)} {taken : List (Nat × β)} {i j k : Nat}

/-- The entry of a list in a round, with the place of the list. -/
def due? (ls : List (List β)) (k i : Nat) : Option (Nat × β) :=
  (ls[i]?.bind fun l => l[k]?).map fun b => (i, b)

/-- The entries of the first lists in a round. -/
def row (ls : List (List β)) (k n : Nat) : List (Nat × β) :=
  (List.range n).filterMap (due? ls k)

/-- The entries of the first rounds. -/
def rows (ls : List (List β)) (k : Nat) : List (Nat × β) :=
  (List.range k).flatMap fun round => row ls round ls.length

/-- The entries that come before a place of a round. -/
def before (ls : List (List β)) (k i : Nat) : List (Nat × β) := rows ls k ++ row ls k i

/-- The number of rounds. -/
def longest (ls : List (List β)) : Nat := (ls.map List.length).foldr max 0

/-- All entries, by their place in their list and then by the place of the list. -/
def inTurn (ls : List (List β)) : List (Nat × β) := rows ls (longest ls)

/-- How often list `j` had its turn before list `i` in round `k`. -/
def turns (k i j : Nat) : Nat := if j < i then k + 1 else k

/-- What is left of some lists, and what was taken from them, before list `i` in round `k`. -/
structure Progress (ls : List (List β)) (k i : Nat) (items : List (List β))
    (taken : List (Nat × β)) : Prop where
  items : ∀ j : Nat, items[j]? = ls[j]?.map (List.drop (turns k i j))
  taken : taken = before ls k i

/-! ### Rounds -/

theorem turns_self (k i : Nat) : turns k i i = k := if_neg (Nat.lt_irrefl i)

theorem turns_succ_self (k i : Nat) : turns k (i + 1) i = k + 1 := if_pos (Nat.lt_succ_self i)

theorem turns_succ_of_ne (k : Nat) (h : j ≠ i) : turns k (i + 1) j = turns k i j := by
  by_cases hlt : j < i
  · rw [turns, turns, if_pos hlt, if_pos (Nat.lt_succ_of_lt hlt)]
  · rw [turns, turns, if_neg hlt, if_neg (by omega)]

theorem turns_zero (k j : Nat) : turns k 0 j = k := if_neg (Nat.not_lt_zero j)

theorem row_succ (ls : List (List β)) (k n : Nat) :
    row ls k (n + 1) = row ls k n ++ (due? ls k n).toList := by
  cases hentry : due? ls k n <;> simp [row, List.range_succ, hentry]

theorem rows_succ (ls : List (List β)) (k : Nat) :
    rows ls (k + 1) = rows ls k ++ row ls k ls.length := by
  simp [rows, List.range_succ]

theorem before_succ (ls : List (List β)) (k i : Nat) :
    before ls k (i + 1) = before ls k i ++ (due? ls k i).toList := by
  rw [before, row_succ, ← List.append_assoc, ← before]

theorem before_wrap (ls : List (List β)) (k : Nat) :
    before ls (k + 1) 0 = before ls k ls.length := by
  rw [before, before, rows_succ]
  exact List.append_nil _

theorem length_le_longest {l : List β} (h : l ∈ ls) : l.length ≤ longest ls := by
  induction ls with
  | nil => cases h
  | cons l' ls ih =>
      rcases List.mem_cons.1 h with rfl | h
      · exact Nat.le_max_left _ _
      · exact Nat.le_trans (ih h) (Nat.le_max_right _ _)

theorem longest_le (h : ∀ l ∈ ls, l.length ≤ k) : longest ls ≤ k := by
  induction ls with
  | nil => exact Nat.zero_le k
  | cons l ls ih =>
      exact Nat.max_le.2
        ⟨h l List.mem_cons_self, ih fun l' hl' => h l' (List.mem_cons_of_mem l hl')⟩

/-- A round in which no list has an entry. -/
theorem row_eq_nil (h : ∀ l ∈ ls, l.length ≤ k) (n : Nat) : row ls k n = [] := by
  rw [row, List.filterMap_eq_nil_iff]
  intro i _
  cases hl : ls[i]? with
  | none => simp [due?, hl]
  | some l => simp [due?, hl, List.getElem?_eq_none (h l (List.mem_of_getElem? hl))]

/-- When the lists are exhausted further rounds add nothing. -/
theorem rows_eq_inTurn (h : longest ls ≤ k) : rows ls k = inTurn ls := by
  induction k, h using Nat.le_induction with
  | base => rfl
  | succ k hle ih =>
      rw [rows_succ, ih, row_eq_nil fun l hl => Nat.le_trans (length_le_longest hl) hle,
        List.append_nil]

theorem mem_row {e : Nat × β} {n : Nat} : e ∈ row ls k n ↔ e.1 < n ∧ due? ls k e.1 = some e := by
  rw [row, List.mem_filterMap]
  constructor
  · rintro ⟨i, hi, hentry⟩
    obtain ⟨b, -, rfl⟩ := Option.map_eq_some_iff.1 hentry
    exact ⟨List.mem_range.1 hi, hentry⟩
  · rintro ⟨hlt, hentry⟩
    exact ⟨e.1, List.mem_range.2 hlt, hentry⟩

theorem due?_eq_some_iff {e : Nat × β} :
    due? ls k e.1 = some e ↔ ∃ l, ls[e.1]? = some l ∧ l[k]? = some e.2 := by
  obtain ⟨i, b⟩ := e
  simp [due?, Option.bind_eq_some_iff]

/-! ### From place to place -/

theorem Progress.start (ls : List (List β)) : Progress ls 0 0 ls [] where
  items j := by
    rw [turns_zero]
    cases ls[j]? <;> rfl
  taken := rfl

/-- The next list has an entry left, which is taken. -/
theorem Progress.take (h : Progress ls k i items taken) {b : β} {rest : List β}
    (hi : items[i]? = some (b :: rest)) :
    Progress ls k (i + 1) (items.set i rest) (taken ++ [(i, b)]) := by
  have hleft := h.items i
  rw [hi, turns_self] at hleft
  obtain ⟨l, hl, hdrop⟩ := Option.map_eq_some_iff.1 hleft.symm
  have hb : l[k]? = some b := by
    rw [← Nat.add_zero k, ← List.getElem?_drop, hdrop]
    rfl
  refine ⟨fun j => ?_, ?_⟩
  · by_cases hji : j = i
    · subst hji
      have hrest : l.drop (k + 1) = rest := by rw [← List.drop_drop, hdrop]; rfl
      rw [List.getElem?_set_self (List.getElem?_eq_some_iff.1 hi).1, hl, turns_succ_self,
        Option.map_some, hrest]
    · rw [List.getElem?_set_ne (Ne.symm hji), h.items j, turns_succ_of_ne k hji]
  · rw [before_succ, ← h.taken, (due?_eq_some_iff (e := (i, b))).2 ⟨l, hl, hb⟩, Option.toList_some]

/-- The next list has no entry left. -/
theorem Progress.skip (h : Progress ls k i items taken) (hi : ∀ l, items[i]? = some l → l = []) :
    Progress ls k (i + 1) items taken := by
  have hnone : ∀ l, ls[i]? = some l → l.length ≤ k := by
    intro l hl
    have hleft := h.items i
    rw [hl, turns_self] at hleft
    exact List.drop_eq_nil_iff.1 (hi _ hleft)
  refine ⟨fun j => ?_, ?_⟩
  · rw [h.items j]
    by_cases hji : j = i
    · subst hji
      rw [turns_self, turns_succ_self]
      cases hl : ls[j]? with
      | none => rfl
      | some l =>
          have hle := hnone l hl
          rw [Option.map_some, Option.map_some, List.drop_eq_nil_of_le hle,
            List.drop_eq_nil_of_le (Nat.le_succ_of_le hle)]
    · rw [turns_succ_of_ne k hji]
  · have hentry : due? ls k i = none := by
      cases hl : ls[i]? with
      | none => simp [due?, hl]
      | some l => simp [due?, hl, List.getElem?_eq_none (hnone l hl)]
    rw [before_succ, hentry, h.taken, Option.toList_none, List.append_nil]

theorem Progress.skip_to (h : Progress ls k i items taken) (hle : i ≤ j)
    (hempty : ∀ x, i ≤ x → x < j → ∀ l, items[x]? = some l → l = []) :
    Progress ls k j items taken := by
  induction j, hle using Nat.le_induction with
  | base => exact h
  | succ j hij ih =>
      exact (ih fun x hix hxj => hempty x hix (Nat.lt_succ_of_lt hxj)).skip
        (hempty j hij (Nat.lt_succ_self j))

theorem Progress.length_eq (h : Progress ls k i items taken) : items.length = ls.length := by
  apply Nat.le_antisymm
  · have hlast := h.items ls.length
    rw [List.getElem?_eq_none (Nat.le_refl _), Option.map_none] at hlast
    exact List.getElem?_eq_none_iff.1 hlast
  · have hlast := h.items items.length
    rw [List.getElem?_eq_none (Nat.le_refl _)] at hlast
    exact List.getElem?_eq_none_iff.1 (Option.map_eq_none_iff.1 hlast.symm)

/-- After the last list the next round begins. -/
theorem Progress.wrap (h : Progress ls k ls.length items taken) :
    Progress ls (k + 1) 0 items taken := by
  refine ⟨fun j => ?_, by rw [before_wrap, h.taken]⟩
  rw [h.items j, turns_zero]
  by_cases hlt : j < ls.length
  · rw [turns, if_pos hlt]
  · rw [List.getElem?_eq_none (Nat.le_of_not_lt hlt)]
    rfl

/-- From a place to one of the next round. -/
theorem Progress.next_round (h : Progress ls k i items taken) (hle : i ≤ ls.length)
    (hrest : ∀ x, i ≤ x → ∀ l, items[x]? = some l → l = [])
    (hfront : ∀ x, x < j → ∀ l, items[x]? = some l → l = []) :
    Progress ls (k + 1) j items taken :=
  (h.skip_to hle fun x hix _ => hrest x hix).wrap.skip_to (Nat.zero_le j) fun x _ => hfront x

/-! ### What was taken, and what is left -/

/-- What was taken is of the lists. -/
theorem Progress.mem (h : Progress ls k i items taken) {e : Nat × β} (he : e ∈ taken) :
    ∃ l, ls[e.1]? = some l ∧ e.2 ∈ l := by
  have hround : ∃ round n, e ∈ row ls round n := by
    rw [h.taken, before, rows, List.mem_append, List.mem_flatMap] at he
    rcases he with ⟨round, -, he⟩ | he
    · exact ⟨round, _, he⟩
    · exact ⟨k, i, he⟩
  obtain ⟨round, n, he⟩ := hround
  obtain ⟨l, hl, hb⟩ := due?_eq_some_iff.1 (mem_row.1 he).2
  exact ⟨l, hl, List.mem_of_getElem? hb⟩

/-- What is of the lists was taken or is left. -/
theorem Progress.untaken (h : Progress ls k i items taken) {l : List β} {b : β}
    (hl : ls[j]? = some l) (hb : b ∈ l) :
    (j, b) ∈ taken ∨ ∃ r, items[j]? = some r ∧ b ∈ r := by
  obtain ⟨x, hx⟩ := List.mem_iff_getElem?.1 hb
  have hlt := (List.getElem?_eq_some_iff.1 hl).1
  have hentry : due? ls x j = some (j, b) := (due?_eq_some_iff (e := (j, b))).2 ⟨l, hl, hx⟩
  by_cases hplace : x < turns k i j
  · refine .inl ?_
    rw [h.taken, before, rows, List.mem_append, List.mem_flatMap]
    -- the entry is of an earlier round, or of an earlier list in this one
    by_cases hxk : x < k
    · exact .inl ⟨x, List.mem_range.2 hxk, mem_row.2 ⟨hlt, hentry⟩⟩
    · have hthis : x = k ∧ j < i := by
        unfold turns at hplace
        split at hplace <;> omega
      obtain ⟨rfl, hji⟩ := hthis
      exact .inr (mem_row.2 ⟨hji, hentry⟩)
  · refine .inr ⟨_, by rw [h.items j, hl, Option.map_some], ?_⟩
    have hdrop : x = turns k i j + (x - turns k i j) := by omega
    rw [hdrop, ← List.getElem?_drop] at hx
    exact List.mem_of_getElem? hx

/-- When nothing is left the entries were taken in turn. -/
theorem Progress.complete (h : Progress ls k i items taken) (hle : i ≤ ls.length)
    (hempty : ∀ l ∈ items, l = []) : taken = inTurn ls := by
  have hnone : ∀ x : Nat, ∀ l, items[x]? = some l → l = [] :=
    fun x l hl => hempty l (List.mem_of_getElem? hl)
  have hround : Progress ls (k + 1) 0 items taken :=
    h.next_round hle (fun x _ => hnone x) fun x _ => hnone x
  have hshort : ∀ l ∈ ls, l.length ≤ k + 1 := by
    intro l hl
    obtain ⟨x, hx⟩ := List.mem_iff_getElem?.1 hl
    have hleft := hround.items x
    rw [hx, turns_zero, Option.map_some] at hleft
    exact List.drop_eq_nil_iff.1 (hnone x _ hleft)
  rw [hround.taken, before, ← rows_eq_inTurn (longest_le hshort)]
  exact List.append_nil _

/-! ### Every entry -/

/-- The entries of a round, without their places. -/
theorem map_snd_row (ls : List (List β)) (k : Nat) :
    (row ls k ls.length).map Prod.snd = ls.flatMap fun l => l[k]?.toList := by
  induction ls using List.reverseRecOn with
  | nil => rfl
  | append_singleton ls l ih =>
      have hfront : row (ls ++ [l]) k ls.length = row ls k ls.length := by
        refine List.filterMap_congr fun i hi => ?_
        rw [due?, due?, List.getElem?_append_left (List.mem_range.1 hi)]
      have hlast : (due? (ls ++ [l]) k ls.length).toList.map Prod.snd = l[k]?.toList := by
        rw [due?, List.getElem?_concat_length, Option.bind_some]
        cases l[k]? <;> rfl
      rw [List.length_append, List.length_singleton, row_succ, List.map_append, hfront, ih, hlast,
        List.flatMap_append, List.flatMap_singleton]

/-- The first rounds take the first entries of each list. -/
theorem map_snd_rows_perm (ls : List (List β)) (k : Nat) :
    ((rows ls k).map Prod.snd).Perm (ls.flatMap (List.take k)) := by
  induction k with
  | zero => simp [rows]
  | succ k ih =>
      have htake : ls.flatMap (List.take (k + 1)) =
          ls.flatMap fun l => l.take k ++ l[k]?.toList :=
        List.flatMap_congr fun l _ => List.take_add_one
      rw [rows_succ, List.map_append, map_snd_row, htake]
      exact (ih.append_right _).trans (List.flatMap_append_perm ls _ _)

/-- Every entry has its turn once. -/
theorem inTurn_perm (ls : List (List β)) : ((inTurn ls).map Prod.snd).Perm ls.flatten := by
  have hall : ls.flatMap (List.take (longest ls)) = ls.flatten := by
    rw [List.flatMap_def]
    congr 1
    refine (List.map_congr_left fun l hl => ?_).trans (List.map_id ls)
    exact List.take_of_length_le (length_le_longest hl)
  rw [← hall]
  exact map_snd_rows_perm ls _

end Newsroom.Rounds
