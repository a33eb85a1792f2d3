import Newsroom.Pipeline.Report
import Newsroom.Proofs.Sums

/-!
# Sums of tallies

When the sums of a report can be evaluated, and when a report is conserved.

## Main Definitions

* `Tally.sumOf` — tallies added up category by category
* `Report.written`, `Report.dispatched` — the exact sums on which the check of conservation depends
* `Report.AddsUp` — what the check decides, over the numbers themselves

## Main Statements

* `producedTotal_eq`, `totalMessages_eq` — articles are added up exactly, or refused because the
  exact sum is no word
* `isConserved_eq` — the check decides `AddsUp`, unless one of two exact sums is no word
* `isConserved_eq_ok` — a report that adds up is conserved
* `adds_up_exactly` — both, and that no order of the producers and no later sum matters

## Design Notes

A sum whose parts are checked one after the other fails at the first part that leaves the range of
words.  All parts are counts, so that this happens exactly if the whole sum leaves it.
-/

namespace Newsroom

namespace Tally

/-- The sums of some tallies, category by category. -/
def sumOf (ts : List Tally) : Tally :=
  ByCategory.ofFn fun c => exactSum (ts.map fun t => t.get c)

theorem get_sumOf (ts : List Tally) (c : Category) :
    (sumOf ts).get c = exactSum (ts.map fun t => t.get c) :=
  ByCategory.get_ofFn _ c

/-- The sum of tallies has their sums in all. -/
theorem sum_sumOf (ts : List Tally) : (sumOf ts).sum = exactSum (ts.map sum) := by
  induction ts with
  | nil => rfl
  | cons t ts ih =>
      simp only [sumOf, sum, ByCategory.ofFn, List.map_cons, exactSum_cons, ByCategory.get] at ih ⊢
      omega

theorem total_eq_ok {t : Tally} (h : t.sum < Word.limit) : t.total = .ok t.sum := by
  rw [total_eq, if_pos h]

theorem eq_sum_of_total {t : Tally} {n : Nat} (h : t.total = .ok n) : n = t.sum := by
  rw [total_eq] at h
  split at h
  · exact (Except.ok.inj h).symm
  · cases h

theorem total_eq_error {t : Tally} (h : Word.limit ≤ t.sum) : t.total = .error .addition := by
  rw [total_eq, if_neg (by omega)]

end Tally

namespace Word

theorem add_eq_ok {a b : Nat} (h : a + b < limit) : add a b = .ok (a + b) := if_pos h

theorem add_eq_error {a b : Nat} (h : limit ≤ a + b) : add a b = .error .addition :=
  if_neg (by omega)

end Word

/-! ### Articles that will be written -/

/-- The articles of a configuration are added up exactly, or their number is no word. -/
theorem Config.totalMessages_eq (c : Config) :
    c.totalMessages =
      if exactSum (c.producers.map fun p => p.messages.toNat) < Word.limit then
        .ok (exactSum (c.producers.map fun p => p.messages.toNat))
      else .error .addition :=
  Word.sum_eq _

namespace Report

/-! ### Articles that were written -/

/-- Tallies are added up exactly, or their exact sum is no word. -/
theorem totalFrom_eq {s : Nat} (hs : s < Word.limit) (ts : List Tally) :
    totalFrom s ts =
      if s + exactSum (ts.map Tally.sum) < Word.limit then .ok (s + exactSum (ts.map Tally.sum))
      else .error .addition := by
  induction ts generalizing s with
  | nil => exact (if_pos hs).symm
  | cons t ts ih =>
      rw [List.map_cons, exactSum_cons, ← Nat.add_assoc]
      by_cases hsum : s + t.sum < Word.limit
      · have ht : t.total = .ok t.sum := Tally.total_eq_ok (by omega)
        rw [← ih hsum, totalFrom, ht]
        show (Word.add s t.sum >>= fun sum => totalFrom sum ts) = _
        rw [Word.add_eq_ok hsum]
        rfl
      -- a sum that is no word on the way stays none, whatever is still to be added
      · rw [if_neg (by omega), totalFrom]
        by_cases ht : t.sum < Word.limit
        · rw [Tally.total_eq_ok ht]
          show (Word.add s t.sum >>= fun sum => totalFrom sum ts) = _
          rw [Word.add_eq_error (by omega)]
          rfl
        · rw [Tally.total_eq_error (by omega)]
          rfl

/-- How many articles the producers of a report have written, exactly. -/
def written (r : Report) : Nat := exactSum (r.produced.map fun q => q.emitted.sum)

/-- The articles written are added up exactly, or their number is no word. -/
theorem producedTotal_eq (r : Report) :
    r.producedTotal = if r.written < Word.limit then .ok r.written else .error .addition := by
  have hmap : (r.produced.map Producer.Report.emitted).map Tally.sum =
      r.produced.map fun q => q.emitted.sum := by
    rw [List.map_map]
    rfl
  rw [producedTotal, totalFrom_eq (by decide), hmap, Nat.zero_add, written]

/-- The articles written are added up exactly. -/
theorem producedTotal_eq_ok {r : Report}
    (h : exactSum (r.produced.map fun q => q.emitted.sum) < Word.limit) :
    r.producedTotal = .ok (exactSum (r.produced.map fun q => q.emitted.sum)) := by
  rw [producedTotal_eq, written, if_pos h]

/-! ### Conservation -/

/-- How many articles the dispatcher of a report has routed or dropped, exactly. -/
def dispatched (r : Report) : Nat := r.dispatch.routed.sum + r.dispatch.dropped

/-- Every article written was routed or dropped, and every article routed was forwarded by the
co-editor of its category and shown. -/
structure AddsUp (r : Report) : Prop where
  dispatched : r.written = r.dispatch.routed.sum + r.dispatch.dropped
  edited : ∀ c, r.dispatch.routed.get c = r.edited.get c
  displayed : r.edited.sum = r.displayed

theorem addsUp_iff (r : Report) :
    r.AddsUp ↔
      r.written = r.dispatched ∧ r.dispatch.routed = r.edited ∧ r.edited.sum = r.displayed :=
  ⟨fun h => ⟨h.dispatched, ByCategory.ext_get h.edited, h.displayed⟩,
    fun h => ⟨h.1, fun c => congrArg (fun t => t.get c) h.2.1, h.2.2⟩⟩

instance (r : Report) : Decidable r.AddsUp :=
  decidable_of_iff' _ r.addsUp_iff

/-- Where the check gets as far as the articles forwarded, they have been added up before under
another name. -/
theorem editedTotal_eq_ok {r : Report} (hdispatched : r.dispatched < Word.limit)
    (hedited : r.dispatch.routed = r.edited) : r.edited.total = .ok r.edited.sum := by
  apply Tally.total_eq_ok
  rw [← hedited]
  exact Nat.lt_of_le_of_lt (Nat.le_add_right _ _) hdispatched

/-- The articles routed and dropped are added up exactly, or their number is no word. -/
theorem dispatchedTotal_eq (r : Report) :
    (r.dispatch.routed.total >>= fun routed => Word.add routed r.dispatch.dropped) =
      if r.dispatched < Word.limit then .ok r.dispatched else .error .addition := by
  by_cases hrouted : r.dispatch.routed.sum < Word.limit
  · rw [Tally.total_eq_ok hrouted]
    rfl
  · rw [Tally.total_eq_error (by omega), dispatched, if_neg (by omega)]
    rfl

/-- The check adds up what was written and what was dispatched before it compares anything. -/
theorem isConserved_eq_bind (r : Report) :
    r.isConserved =
      r.producedTotal >>= fun produced =>
        (r.dispatch.routed.total >>= fun routed => Word.add routed r.dispatch.dropped) >>=
          fun accounted =>
            if produced ≠ accounted then .ok false
            else if r.dispatch.routed ≠ r.edited then .ok false
            else r.edited.total >>= fun edited => .ok (decide (edited = r.displayed)) := by
  simp only [isConserved, bind_assoc]
  rfl

/-- The check decides whether a report adds up, unless the articles written, or those routed and
dropped, are no word. -/
theorem isConserved_eq (r : Report) :
    r.isConserved =
      if Word.limit ≤ r.written ∨ Word.limit ≤ r.dispatched then .error .addition
      else .ok (decide r.AddsUp) := by
  rw [isConserved_eq_bind, producedTotal_eq, dispatchedTotal_eq]
  by_cases hlarge : Word.limit ≤ r.written ∨ Word.limit ≤ r.dispatched
  · rw [if_pos hlarge]
    by_cases hwritten : r.written < Word.limit
    · have hdispatched : ¬ r.dispatched < Word.limit := by omega
      rw [if_pos hwritten, if_neg hdispatched]
      rfl
    · rw [if_neg hwritten]
      rfl
  · have hwritten : r.written < Word.limit := by omega
    have hdispatched : r.dispatched < Word.limit := by omega
    rw [if_neg hlarge, if_pos hwritten, if_pos hdispatched]
    -- the comparisons stop at the first part that fails
    by_cases hsame : r.written = r.dispatched
    · by_cases hedited : r.dispatch.routed = r.edited
      · simp [hsame, hedited, editedTotal_eq_ok hdispatched hedited, addsUp_iff, bind, Except.bind]
      · simp [hsame, hedited, addsUp_iff, bind, Except.bind]
    · simp [hsame, addsUp_iff, bind, Except.bind]

/-- A report is conserved if as many articles were written, routed, forwarded and
displayed, and none was dropped. -/
theorem isConserved_eq_ok {r : Report} {n : Nat} (hn : n < Word.limit)
    (hproduced : r.producedTotal = .ok n) (hrouted : r.dispatch.routed.sum = n)
    (hdropped : r.dispatch.dropped = 0) (hedited : r.edited = r.dispatch.routed)
    (hdisplayed : r.displayed = n) : r.isConserved = .ok true := by
  have hwritten : r.written = n := by
    rw [producedTotal_eq] at hproduced
    split at hproduced
    · exact Except.ok.inj hproduced
    · cases hproduced
  have hdispatched : r.dispatched = n := by rw [dispatched, hrouted, hdropped, Nat.add_zero]
  have hshown : r.edited.sum = r.displayed := by rw [hedited, hrouted, hdisplayed]
  have haddsUp : r.AddsUp :=
    r.addsUp_iff.2 ⟨hwritten.trans hdispatched.symm, hedited.symm, hshown⟩
  rw [isConserved_eq, if_neg (by omega), decide_eq_true haddsUp]

/-- The check of a report fails exactly if the articles written, or those routed and dropped, are
together no word; otherwise it decides whether the report adds up.  The sum of the articles
forwarded, where the check comes to it, never fails.  The articles that were written, and those that
a configuration will write, are added up exactly or are together no word, in whatever order the
producers stand. -/
theorem adds_up_exactly (r : Report) (c : Config) :
    r.isConserved =
        (if Word.limit ≤ r.written ∨ Word.limit ≤ r.dispatched then .error .addition
        else .ok (decide r.AddsUp)) ∧
      (∀ produced routed, r.producedTotal = .ok produced → r.dispatch.routed.total = .ok routed →
        Word.add routed r.dispatch.dropped = .ok produced → r.dispatch.routed = r.edited →
          r.edited.total = .ok r.edited.sum) ∧
      r.producedTotal =
        (if r.written < Word.limit then .ok r.written else .error .addition) ∧
      (∀ qs : List Producer.Report, qs.Perm r.produced →
        { r with produced := qs }.producedTotal = r.producedTotal) ∧
      c.totalMessages =
        (if exactSum (c.producers.map fun p => p.messages.toNat) < Word.limit then
          .ok (exactSum (c.producers.map fun p => p.messages.toNat))
        else .error .addition) ∧
      ∀ ps : List ProducerSpec, ps.Perm c.producers →
        { c with producers := ps }.totalMessages = c.totalMessages := by
  refine ⟨r.isConserved_eq, fun produced routed _ hrouted _ hedited => ?_, r.producedTotal_eq,
    fun qs hqs => ?_, c.totalMessages_eq, fun ps hps => ?_⟩
  -- the counts forwarded are those routed, and these have just been added up
  · rw [← hedited, hrouted, Tally.eq_sum_of_total hrouted]
  · have hwritten : ({ r with produced := qs } : Report).written = r.written :=
      exactSum_map_perm _ hqs
    rw [producedTotal_eq, producedTotal_eq, hwritten]
  · rw [Config.totalMessages_eq, Config.totalMessages_eq, exactSum_map_perm _ hps]

/-- Two producers with as many articles as a word can count, of which one was dropped. -/
def brimful : Report where
  produced := [⟨1, ⟨Word.limit - 2, 0, 0⟩⟩, ⟨2, ⟨0, 1, 0⟩⟩]
  dispatch := { routed := ⟨Word.limit - 2, 0, 0⟩, dropped := 1 }
  edited := ⟨Word.limit - 2, 0, 0⟩
  screen := { displayed := Word.limit - 2 }

/-- A report whose sums are the greatest word is conserved; one article more, and a configuration
has no total in either order of its producers. -/
theorem adds_up_exactly_brimful :
    brimful.isConserved = .ok true ∧ brimful.edited.total = .ok (Word.limit - 2) ∧
      { brimful with produced := brimful.produced.reverse }.producedTotal = .ok (Word.limit - 1) ∧
      ({ producers := [⟨2, 1, 1⟩, ⟨1, 0xffffffffffffffff, 1⟩], coEditorQueueSize := 1 } :
        Config).totalMessages = .error .addition := by
  obtain ⟨hconserved, hedited, hproduced, horder, htotal, hconfig⟩ :=
    adds_up_exactly brimful
      { producers := [⟨1, 0xffffffffffffffff, 1⟩, ⟨2, 1, 1⟩], coEditorQueueSize := 1 }
  have hwritten : brimful.producedTotal = .ok (Word.limit - 1) := by
    rw [hproduced, if_pos (by decide +kernel)]
    rfl
  have hrouted : brimful.dispatch.routed.total = .ok (Word.limit - 2) :=
    Tally.total_eq_ok (by decide +kernel)
  have hadd : Word.add (Word.limit - 2) brimful.dispatch.dropped = .ok (Word.limit - 1) :=
    Word.add_eq_ok (by decide +kernel)
  refine ⟨?_, hedited _ _ hwritten hrouted hadd rfl, ?_, ?_⟩
  · rw [hconserved, if_neg (by decide +kernel), decide_eq_true (by decide +kernel)]
  · rw [horder _ (List.reverse_perm _), hwritten]
  · rw [hconfig _ (List.Perm.swap _ _ _), htotal, if_neg (by decide +kernel)]

end Report

end Newsroom
