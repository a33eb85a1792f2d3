import Newsroom.Category
import Newsroom.Word

/-!
# One place of many

What changes when one entry of a list, or the value of one category, is replaced.

## Main Definitions

* `partAt` — the list that belongs to the entry at a place

## Main Statements

* `getElem?_set_of_some` — the entries of a list with a replaced entry
* `map_set_of_eq` — what a replacement leaves as it was
* `exactSum_map_set`, `exactSum_toList_set` — a sum over a list, or over the
  categories, after a replacement
* `countP_set_of_some` — the entries of a kind after a replacement
* `exactSum_map_le` — sums are compared share by share
* `exactSum_map_perm` — a sum does not depend on the order of its shares
-/

namespace Newsroom

variable {β γ : Type}

/-! ### Lists -/

/-- Where an entry was replaced the new one stands, and everywhere else the old. -/
theorem getElem?_set_of_some {l : List β} {i : Nat} {b : β} (h : l[i]? = some b) (a : β) (j : Nat) :
    (l.set i a)[j]? = if j = i then some a else l[j]? := by
  obtain ⟨hi, -⟩ := List.getElem?_eq_some_iff.1 h
  rw [List.getElem?_set]
  by_cases hij : i = j
  · simp [hij, hij ▸ hi]
  · simp [hij, Ne.symm hij]

/-- The other entries of a list with a replaced entry. -/
theorem getElem?_set_other (l : List β) (i : Nat) (a : β) :
    ∀ j, j ≠ i → (l.set i a)[j]? = l[j]? :=
  fun _ hji => List.getElem?_set_ne (Ne.symm hji)

/-- The only entry at the place of a replacement. -/
theorem eq_of_getElem?_set {l : List β} {i : Nat} {a b : β}
    (h : (l.set i a)[i]? = some b) : b = a := by
  rw [List.getElem?_set] at h
  split at h
  · split at h
    · exact (Option.some.inj h).symm
    · cases h
  · contradiction

/-- The entries of a list with a replaced entry are the new one and old ones. -/
theorem mem_of_mem_set {l : List β} {i : Nat} {a x : β} (h : x ∈ l.set i a) : x = a ∨ x ∈ l :=
  (List.mem_or_eq_of_mem_set h).symm

/-- A replacement by an entry that looks the same leaves what the list looks like. -/
theorem map_set_of_eq {f : β → γ} {l : List β} {i : Nat} {a b : β} (h : l[i]? = some b)
    (hsame : f a = f b) : (l.set i a).map f = l.map f := by
  have hmap : (l.map f)[i]? = some (f a) := by rw [List.getElem?_map, h, Option.map_some, hsame]
  obtain ⟨hlt, heq⟩ := List.getElem?_eq_some_iff.1 hmap
  rw [List.map_set, ← heq, List.set_getElem_self hlt]

/-- The list that belongs to the entry at a place, and none where there is no
entry. -/
def partAt (w : β → List γ) (l : List β) (i : Nat) : List γ :=
  (l[i]?.map w).getD []

theorem partAt_of_some {w : β → List γ} {l : List β} {i : Nat} {b : β} (h : l[i]? = some b) :
    partAt w l i = w b := by
  simp [partAt, h]

theorem partAt_eq_nil {w : β → List γ} {l : List β} (h : ∀ b ∈ l, w b = []) (i : Nat) :
    partAt w l i = [] := by
  cases hb : l[i]? with
  | none => simp [partAt, hb]
  | some b => rw [partAt_of_some hb, h b (List.mem_of_getElem? hb)]

theorem partAt_set {l : List β} {i : Nat} {b : β} (w : β → List γ) (h : l[i]? = some b) (a : β)
    (j : Nat) : partAt w (l.set i a) j = if j = i then w a else partAt w l j := by
  rw [partAt, getElem?_set_of_some h]
  split <;> rfl

theorem exactSum_append (ms ns : List Nat) : exactSum (ms ++ ns) = exactSum ms + exactSum ns := by
  induction ms with
  | nil => simp
  | cons m ms ih => simp [ih, Nat.add_assoc]

/-- A sum does not depend on the order of its shares. -/
theorem exactSum_map_perm {l l' : List β} (w : β → Nat) (h : l.Perm l') :
    exactSum (l.map w) = exactSum (l'.map w) := by
  induction h with
  | nil => rfl
  | cons x _ ih => rw [List.map_cons, List.map_cons, exactSum_cons, exactSum_cons, ih]
  | swap x y xs =>
      simp only [List.map_cons, exactSum_cons]
      omega
  | trans _ _ ih ih' => exact ih.trans ih'

/-- A replaced entry changes a sum by its own share. -/
theorem exactSum_map_set {l : List β} {i : Nat} {b : β} (w : β → Nat) (h : l[i]? = some b) (a : β) :
    exactSum ((l.set i a).map w) + w b = exactSum (l.map w) + w a := by
  induction l generalizing i with
  | nil => simp at h
  | cons x xs ih =>
      cases i with
      | zero =>
          simp only [List.getElem?_cons_zero, Option.some.injEq] at h
          subst h
          simp only [List.set_cons_zero, List.map_cons, exactSum_cons]
          omega
      | succ i =>
          simp only [List.getElem?_cons_succ] at h
          have hrest := ih h
          simp only [List.set_cons_succ, List.map_cons, exactSum_cons]
          omega

/-- A replaced entry changes a count by its own share. -/
theorem countP_set_of_some {l : List β} {i : Nat} {b : β} (p : β → Bool) (h : l[i]? = some b)
    (a : β) : (l.set i a).countP p + (p b).toNat = l.countP p + (p a).toNat := by
  have hshare : ∀ l : List β, l.countP p = exactSum (l.map fun b => (p b).toNat) := by
    intro l
    induction l with
    | nil => rfl
    | cons x xs ih =>
        rw [List.countP_cons, ih, List.map_cons, exactSum_cons, Nat.add_comm]
        cases p x <;> rfl
  rw [hshare, hshare]
  exact exactSum_map_set (fun b => (p b).toNat) h a

/-- The same for a kind that is given by a decidable property. -/
theorem countP_decide_set_of_some {l : List β} {i : Nat} {b : β} (p : β → Prop)
    [DecidablePred p] (h : l[i]? = some b) (a : β) :
    (l.set i a).countP (fun x => decide (p x)) + (if p b then 1 else 0) =
      l.countP (fun x => decide (p x)) + if p a then 1 else 0 := by
  have hset := countP_set_of_some (fun x => decide (p x)) h a
  by_cases hb : p b <;> by_cases ha : p a <;> simpa [hb, ha] using hset

theorem exactSum_replicate (n k : Nat) : exactSum (List.replicate n k) = n * k := by
  induction n with
  | zero => simp
  | succ n ih =>
      rw [List.replicate_succ, exactSum_cons, ih, Nat.succ_mul]
      exact Nat.add_comm _ _

/-- A share is at most the sum. -/
theorem le_exactSum_map {l : List β} {b : β} (w : β → Nat) (h : b ∈ l) :
    w b ≤ exactSum (l.map w) := by
  induction h with
  | head xs =>
      rw [List.map_cons, exactSum_cons]
      omega
  | tail x _ ih =>
      rw [List.map_cons, exactSum_cons]
      omega

theorem exactSum_map_eq_zero {l : List β} {w : β → Nat} (h : ∀ b ∈ l, w b = 0) :
    exactSum (l.map w) = 0 := by
  induction l with
  | nil => rfl
  | cons x xs ih =>
      rw [List.map_cons, exactSum_cons, h x List.mem_cons_self,
        ih fun b hb => h b (List.mem_cons_of_mem x hb)]

/-- A sum is no greater when none of its shares is. -/
theorem exactSum_map_le {l l' : List β} {w : β → Nat} (hlength : l'.length = l.length)
    (h : ∀ (i : Nat) (b b' : β), l[i]? = some b → l'[i]? = some b' → w b' ≤ w b) :
    exactSum (l'.map w) ≤ exactSum (l.map w) := by
  induction l generalizing l' with
  | nil =>
      rw [List.length_nil, List.length_eq_zero_iff] at hlength
      subst hlength
      exact Nat.le_refl _
  | cons x xs ih =>
      cases l' with
      | nil => exact Nat.zero_le _
      | cons y ys =>
          have hfirst := h 0 x y rfl rfl
          have hrest := ih (Nat.succ.inj hlength) fun i b b' => h (i + 1) b b'
          simp only [List.map_cons, exactSum_cons]
          omega

/-- The first shares of a sum make no more than all of them. -/
theorem exactSum_map_take_le (w : β → Nat) (n : Nat) (l : List β) :
    exactSum ((l.take n).map w) ≤ exactSum (l.map w) := by
  calc exactSum ((l.take n).map w)
      ≤ exactSum ((l.take n).map w) + exactSum ((l.drop n).map w) := Nat.le_add_right _ _
    _ = exactSum (l.map w) := by
        rw [← exactSum_append, ← List.map_append, List.take_append_drop]

/-- A sum of multiples of some shares with a constant added to each. -/
theorem exactSum_map_affine {l : List β} {v w : β → Nat} {a k : Nat}
    (h : ∀ b ∈ l, v b = a * w b + k) :
    exactSum (l.map v) = a * exactSum (l.map w) + k * l.length := by
  induction l with
  | nil => simp
  | cons x xs ih =>
      have hx := h x List.mem_cons_self
      have hxs := ih fun b hb => h b (List.mem_cons_of_mem x hb)
      simp only [List.map_cons, exactSum_cons, List.length_cons, hx, hxs, Nat.mul_add, Nat.mul_one]
      omega

theorem exactSum_map_const {l : List β} {v : β → Nat} {k : Nat} (h : ∀ b ∈ l, v b = k) :
    exactSum (l.map v) = k * l.length := by
  have haffine : exactSum (l.map v) = 0 * exactSum (l.map v) + k * l.length :=
    exactSum_map_affine fun b hb => by rw [Nat.zero_mul, Nat.zero_add, h b hb]
  rw [Nat.zero_mul, Nat.zero_add] at haffine
  exact haffine

theorem exactSum_map_add (v w : β → Nat) (l : List β) :
    exactSum (l.map fun b => v b + w b) = exactSum (l.map v) + exactSum (l.map w) := by
  induction l with
  | nil => rfl
  | cons x xs ih =>
      simp only [List.map_cons, exactSum_cons, ih]
      omega

/-- Of the first `n` numbers one is equal to a given number below `n`. -/
theorem exactSum_range_single {n k : Nat} (h : k < n) :
    exactSum ((List.range n).map fun i => if k = i then 1 else 0) = 1 := by
  induction n with
  | zero => cases h
  | succ n ih =>
      rw [List.range_succ, List.map_append, exactSum_append]
      rcases Nat.lt_or_eq_of_le (Nat.le_of_lt_succ h) with hlt | heq
      · rw [ih hlt]
        simp [Nat.ne_of_lt hlt]
      · subst heq
        have hnone : exactSum ((List.range k).map fun i => if k = i then 1 else 0) = 0 :=
          exactSum_map_eq_zero fun i hi => if_neg (Nat.ne_of_gt (List.mem_range.1 hi))
        rw [hnone]
        simp

/-! ### Categories -/

/-- A replaced value changes a sum over the categories by its own share. -/
theorem exactSum_toList_set (w : β → Nat) (t : ByCategory β) (c : Category) (b : β) :
    exactSum ((t.set c b).map w).toList + w (t.get c) = exactSum (t.map w).toList + w b := by
  cases c <;> simp [ByCategory.set, ByCategory.map, ByCategory.toList, ByCategory.get] <;> omega

/-- A sum over the categories, value by value. -/
theorem exactSum_toList (t : ByCategory Nat) :
    exactSum t.toList = t.get .sports + t.get .news + t.get .weather := by
  simp [ByCategory.toList, ByCategory.get, Nat.add_assoc]

end Newsroom
