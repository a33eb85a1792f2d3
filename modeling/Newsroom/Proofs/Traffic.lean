import Newsroom.Article
import Newsroom.Message
import Newsroom.Proofs.Sums

/-!
# Articles on their way

Where the articles of all producers are, apart from queues, end marks and the stages
that carry them.  Articles that share a producer and a category never overtake one
another.

## Main Definitions

* `articlesBy`, `firstArticles` — the articles of a kind, and those that a producer
  writes first
* `Traffic` — the articles at each stretch of the way
* `Traffic.write`, `Traffic.Pass` — an article is written, or passes to the next
  stretch
* `Traffic.Sorted` — articles are only where their producer and category allow
* `Traffic.trail` — the articles of a kind, those that have come furthest first

## Main Statements

* `perm_of_articlesBy` — messages are known up to their order from the articles of
  each kind and the number of end marks
* `trail_write` — an article that is written comes last on the trail of its kind
* `Pass.sorted`, `Pass.trail_eq` — articles that pass on stay sorted, and no trail
  changes

## Design Notes

Articles are told apart by the place of their producer, since producers may carry
the same number.
-/

namespace Newsroom

/-- The articles in a list of messages. -/
def bodies (ms : List (Message Article)) : List Article :=
  ms.filterMap Message.body?

/-- Whether an article is by the producer at a place and of a category. -/
def Article.isOf (i : Nat) (c : Category) (a : Article) : Bool :=
  a.origin = i ∧ a.category = c

/-- The articles in a list of messages that the producer at a place wrote on a
category. -/
def articlesBy (i : Nat) (c : Category) (ms : List (Message Article)) : List Article :=
  (bodies ms).filter (Article.isOf i c)

/-- The first `n` articles of a producer on a category. -/
def firstArticles (i : Nat) (id : UInt32) (c : Category) (n : Nat) : List Article :=
  (List.range n).map fun k => ⟨i, id, c, k⟩

@[simp] theorem bodies_nil : bodies [] = [] := rfl

@[simp] theorem bodies_append (ms ns : List (Message Article)) :
    bodies (ms ++ ns) = bodies ms ++ bodies ns := by
  simp [bodies]

@[simp] theorem bodies_cons_item (a : Article) (ms : List (Message Article)) :
    bodies (.item a :: ms) = a :: bodies ms := rfl

@[simp] theorem bodies_cons_done (ms : List (Message Article)) :
    bodies (.done :: ms) = bodies ms := rfl

@[simp] theorem mem_bodies {a : Article} {ms : List (Message Article)} :
    a ∈ bodies ms ↔ .item a ∈ ms := by
  rw [bodies, List.mem_filterMap]
  constructor
  · rintro ⟨m, hm, hbody⟩
    cases m with
    | done => cases hbody
    | item b =>
        cases hbody
        exact hm
  · exact fun ha => ⟨_, ha, rfl⟩

theorem firstArticles_succ (i : Nat) (id : UInt32) (c : Category) (n : Nat) :
    firstArticles i id c (n + 1) = firstArticles i id c n ++ [⟨i, id, c, n⟩] := by
  simp [firstArticles, List.range_succ]

theorem length_firstArticles (i : Nat) (id : UInt32) (c : Category) (n : Nat) :
    (firstArticles i id c n).length = n := by
  simp [firstArticles]

/-- The articles of a category, counted producer by producer. -/
theorem countP_category_eq {n : Nat} {as : List Article} (h : ∀ a ∈ as, a.origin < n)
    (c : Category) :
    as.countP (fun a => a.category = c) =
      exactSum ((List.range n).map fun i => (as.filter (Article.isOf i c)).length) := by
  induction as with
  | nil => exact (exactSum_map_eq_zero fun _ _ => rfl).symm
  | cons a as ih =>
      rw [List.forall_mem_cons] at h
      have hcons : ∀ i, ((a :: as).filter (Article.isOf i c)).length =
          (if a.category = c then if a.origin = i then 1 else 0 else 0) +
            (as.filter (Article.isOf i c)).length := by
        intro i
        by_cases hc : a.category = c <;> by_cases hi : a.origin = i <;>
          simp [Article.isOf, hc, hi, Nat.add_comm]
      simp only [hcons]
      rw [exactSum_map_add, ← ih h.2, List.countP_cons]
      by_cases hc : a.category = c
      · simp [hc, exactSum_range_single h.1, Nat.add_comm]
      · have hzero : exactSum ((List.range n).map fun i =>
            if a.category = c then if a.origin = i then 1 else 0 else 0) = 0 :=
          exactSum_map_eq_zero fun i _ => if_neg hc
        rw [hzero, if_neg (by simpa using hc), Nat.zero_add, Nat.add_zero]

/-- Every article is of some category. -/
theorem length_eq_countP_category (as : List Article) :
    as.length = as.countP (fun a => a.category = .sports) +
      as.countP (fun a => a.category = .news) + as.countP fun a => a.category = .weather := by
  induction as with
  | nil => rfl
  | cons a as ih =>
      simp only [List.length_cons, List.countP_cons, ih]
      cases a.category <;> simp <;> omega

/-- Messages are articles and end marks. -/
theorem length_eq_bodies (ms : List (Message Article)) :
    ms.length = (bodies ms).length + ms.countP Message.isDone := by
  induction ms with
  | nil => rfl
  | cons m ms ih =>
      cases m with
      | item a =>
          simp only [List.length_cons, bodies_cons_item, List.countP_cons, Message.isDone_item, ih]
          simp
          omega
      | done =>
          simp only [List.length_cons, bodies_cons_done, List.countP_cons, Message.isDone_done, ih]
          simp
          omega

theorem count_item (a : Article) (ms : List (Message Article)) :
    ms.count (.item a) = (articlesBy a.origin a.category ms).count a := by
  have hkind : Article.isOf a.origin a.category a = true := by simp [Article.isOf]
  rw [articlesBy, List.count_filter hkind]
  induction ms with
  | nil => rfl
  | cons m ms ih =>
      cases m with
      | item b => by_cases hab : b = a <;> simp [ih, hab]
      | done => simp [ih]

theorem count_done (ms : List (Message Article)) :
    ms.count .done = ms.countP Message.isDone := by
  rw [List.count]
  apply List.countP_congr
  intro m _
  cases m <;> simp

/-- Lists with the same articles of every kind and as many end marks are
permutations. -/
theorem perm_of_articlesBy {ms ns : List (Message Article)}
    (harticles : ∀ i d, articlesBy i d ms = articlesBy i d ns)
    (hdone : ms.countP Message.isDone = ns.countP Message.isDone) : ms.Perm ns := by
  apply List.perm_iff_count.2
  intro m
  cases m with
  | item a => rw [count_item, count_item, harticles]
  | done => rw [count_done, count_done, hdone]

/-- The articles at each stretch of the way, those ahead first. -/
@[ext] structure Traffic where
  /-- With a producer, or between it and the dispatcher. -/
  inbound : Nat → List Article
  /-- With the dispatcher. -/
  inHand : List Article
  /-- Between the dispatcher and the screen queue. -/
  desk : Category → List Article
  /-- On the screen queue or already given to the display. -/
  outbound : List Article

namespace Traffic

/-- A producer has written an article. -/
def write (t : Traffic) (i : Nat) (a : Article) : Traffic :=
  { t with inbound := fun j => if j = i then t.inbound i ++ [a] else t.inbound j }

/-- An article passes from one stretch to the next. -/
inductive Pass (t : Traffic) : Traffic → Prop
  | accept (i : Nat) (a : Article) (as : List Article) (ahead : t.inbound i = a :: as) :
      Pass t
        { t with
          inbound := fun j => if j = i then as else t.inbound j
          inHand := t.inHand ++ [a] }
  | file (a : Article) (as : List Article) (ahead : t.inHand = a :: as) :
      Pass t
        { t with
          inHand := as
          desk := fun c => if c = a.category then t.desk c ++ [a] else t.desk c }
  | release (c : Category) (a : Article) (as : List Article) (ahead : t.desk c = a :: as) :
      Pass t
        { t with
          desk := fun d => if d = c then as else t.desk d
          outbound := t.outbound ++ [a] }

/-- Articles are only where they belong, all of them by one of `n` producers. -/
structure Sorted (n : Nat) (t : Traffic) : Prop where
  inbound : ∀ i, ∀ a ∈ t.inbound i, a.origin = i ∧ i < n
  inHand : ∀ a ∈ t.inHand, a.origin < n
  desk : ∀ c, ∀ a ∈ t.desk c, a.category = c ∧ a.origin < n
  outbound : ∀ a ∈ t.outbound, a.origin < n

/-- The articles of a producer on a category, those that have come furthest
first. -/
def trail (t : Traffic) (i : Nat) (c : Category) : List Article :=
  (t.outbound ++ t.desk c ++ t.inHand ++ t.inbound i).filter (Article.isOf i c)

variable {n : Nat} {t t' : Traffic}

/-- An article that is written comes last on the trail of its kind. -/
theorem trail_write (t : Traffic) {i : Nat} {a : Article} (ha : a.origin = i) (j : Nat)
    (c : Category) :
    (t.write i a).trail j c = t.trail j c ++ if a.isOf j c then [a] else [] := by
  by_cases hji : j = i
  · subst hji
    simp [trail, write, List.filter_append, List.filter_cons]
  · have hother : a.isOf j c = false := by simp [Article.isOf, ha, Ne.symm hji]
    simp [trail, write, hji, hother]

theorem Sorted.write (h : Sorted n t) {i : Nat} (hi : i < n) {a : Article} (ha : a.origin = i) :
    Sorted n (t.write i a) := by
  refine { h with inbound := ?_ }
  intro j b hb
  simp only [Traffic.write] at hb
  split at hb
  · next hji =>
    rcases List.mem_append.1 hb with hold | hnew
    · exact hji ▸ h.inbound i b hold
    · rw [List.mem_singleton.1 hnew, hji]
      exact ⟨ha, hi⟩
  · exact h.inbound j b hb

/-- Articles stay sorted on their way. -/
theorem Pass.sorted (hpass : Pass t t') (h : Sorted n t) : Sorted n t' := by
  cases hpass with
  | accept i a as ahead =>
      have hin := h.inbound i
      rw [ahead, List.forall_mem_cons] at hin
      refine { h with inbound := ?_, inHand := ?_ }
      · intro j b hb
        dsimp only at hb
        split at hb
        · next hji => exact hji ▸ hin.2 b hb
        · exact h.inbound j b hb
      · intro b hb
        rcases List.mem_append.1 hb with hold | hnew
        · exact h.inHand b hold
        · rw [List.mem_singleton.1 hnew, hin.1.1]
          exact hin.1.2
  | file a as ahead =>
      have hhand := h.inHand
      rw [ahead, List.forall_mem_cons] at hhand
      refine { h with inHand := hhand.2, desk := ?_ }
      intro c b hb
      dsimp only at hb
      split at hb
      · next hc =>
        rcases List.mem_append.1 hb with hold | hnew
        · exact h.desk c b hold
        · rw [List.mem_singleton.1 hnew]
          exact ⟨hc.symm, hhand.1⟩
      · exact h.desk c b hb
  | release c a as ahead =>
      have hdesk := h.desk c
      rw [ahead, List.forall_mem_cons] at hdesk
      refine { h with desk := ?_, outbound := ?_ }
      · intro d b hb
        dsimp only at hb
        split at hb
        · next hdc => exact hdc ▸ hdesk.2 b hb
        · exact h.desk d b hb
      · intro b hb
        rcases List.mem_append.1 hb with hold | hnew
        · exact h.outbound b hold
        · rw [List.mem_singleton.1 hnew]
          exact hdesk.1.2

/-- No trail changes when an article passes to the next stretch: on its own trail
it stays in its place, and on the others it does not count. -/
theorem Pass.trail_eq (hpass : Pass t t') (h : Sorted n t) (i : Nat) (c : Category) :
    t'.trail i c = t.trail i c := by
  cases hpass with
  | accept j a as ahead =>
      by_cases hij : i = j
      · subst hij
        simp [trail, ahead]
      · have horigin : a.origin = j := (h.inbound j a (by simp [ahead])).1
        have hother : a.isOf i c = false := by simp [Article.isOf, horigin, Ne.symm hij]
        simp [trail, hij, hother]
  | file a as ahead =>
      by_cases hc : c = a.category
      · simp [trail, ahead, hc]
      · have hother : a.isOf i c = false := by simp [Article.isOf, Ne.symm hc]
        simp [trail, ahead, hc, hother]
  | release d a as ahead =>
      by_cases hcd : c = d
      · subst hcd
        simp [trail, ahead]
      · have hcategory : a.category = d := (h.desk d a (by simp [ahead])).1
        have hother : a.isOf i c = false := by simp [Article.isOf, hcategory, Ne.symm hcd]
        simp [trail, hcd, hother]

end Traffic

end Newsroom
