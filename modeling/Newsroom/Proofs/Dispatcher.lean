import Newsroom.Proofs.Sums
import Newsroom.Stage.Dispatcher

/-!
# The dispatcher between two steps

What the dispatcher does next is tied to what it knows of its sources, whatever its
sources give it.

## Main Definitions

* `Dispatcher.Steady` — the next step fits the states of the sources
* `Dispatcher.Prompt` — a source drains only while it is being checked
* `Dispatcher.Truthful` — the counts fit the states of the sources and the marks sent
* `Dispatcher.held`, `Dispatcher.sent`, `SourceStatus.received` — the text in its
  hands, and the end marks that went out of and came into them

## Main Statements

* `scan_cases` — a pass goes on at a source that is not done, and ends when all are
* `steady_of_scan`, `steady_afterPoll`, `Steady.closed` — the dispatcher is steady
  after a pass, after a look at a source, and after an end mark
* `Truthful.of_none_sent`, `Truthful.closed` — its counts stay true
-/

namespace Newsroom

/-- The end marks that were taken from a source, further ones of the same source
not counted. -/
def SourceStatus.received : SourceStatus → Nat
  | .active => 0
  | .draining => 1
  | .done => 1

namespace Dispatcher

variable {α : Type}

/-- The message in the hands of the dispatcher. -/
def held (d : Dispatcher α) : List (Message α) :=
  match d.phase with
  | .routing _ _ body => [.item body]
  | _ => []

/-- The end marks that the dispatcher has put into the queue of a category. -/
def sent (d : Dispatcher α) (c : Category) : Nat :=
  match d.phase with
  | .closing next cs => if c ∈ next :: cs then 0 else 1
  | .finished => 1
  | _ => 0

/-- What the dispatcher does next fits the states of its sources. -/
def Steady (d : Dispatcher α) : Prop :=
  match d.phase with
  | .polling i => ∃ s, d.sources[i]? = some s ∧ s ≠ .done
  | .routing i _ _ => ∃ s, d.sources[i]? = some s ∧ s ≠ .done
  | .checking i => d.sources[i]? = some .draining
  | .closing c cs => (∀ s ∈ d.sources, s = .done) ∧ (c :: cs) <:+ Category.all
  | .finished => ∀ s ∈ d.sources, s = .done

/-- An end mark is followed at once by the check of its source. -/
def Prompt (d : Dispatcher α) : Prop :=
  ∀ i, d.sources[i]? = some .draining → d.phase = .checking i

/-! ### Passes -/

theorem nextFrom?_eq_some {i j : Nat} {sources : List SourceStatus}
    (h : nextFrom? i sources = some j) : ∃ s, sources[j]? = some s ∧ s ≠ .done := by
  obtain ⟨k, hk, rfl⟩ := Option.map_eq_some_iff.1 h
  obtain ⟨hlt, hne, -⟩ := List.findIdx?_eq_some_iff_getElem.1 hk
  refine ⟨(sources.drop i)[k], ?_, by simpa using hne⟩
  rw [← List.getElem?_drop, List.getElem?_eq_getElem hlt]

theorem nextFrom?_eq_none {i : Nat} {sources : List SourceStatus}
    (h : nextFrom? i sources = none) : ∀ s ∈ sources.drop i, s = .done := by
  simpa [nextFrom?, List.findIdx?_eq_none_iff] using h

/-- A pass goes on at a source that is not done, or else all sources are done. -/
theorem scan_cases (i : Nat) (sources : List SourceStatus) :
    (∃ j s, (scan i sources : Phase α) = .polling j ∧ sources[j]? = some s ∧ s ≠ .done) ∨
      ((scan i sources : Phase α) = .closing .sports [.news, .weather] ∧
        ∀ s ∈ sources, s = .done) := by
  unfold scan
  -- the rest of this pass comes first, and then a new pass from the front
  cases hrest : nextFrom? i sources with
  | some j =>
      obtain ⟨s, hs, hne⟩ := nextFrom?_eq_some hrest
      exact .inl ⟨j, s, rfl, hs, hne⟩
  | none =>
      cases hall : nextFrom? 0 sources with
      | some j =>
          obtain ⟨s, hs, hne⟩ := nextFrom?_eq_some hall
          exact .inl ⟨j, s, rfl, hs, hne⟩
      | none => exact .inr ⟨rfl, by simpa using nextFrom?_eq_none hall⟩

/-- After a pass nothing is held and no end mark has been sent. -/
theorem held_sent_of_scan {d : Dispatcher α} {i : Nat} (h : d.phase = scan i d.sources) :
    d.held = [] ∧ ∀ c, d.sent c = 0 := by
  rcases scan_cases (α := α) i d.sources with ⟨j, s, hscan, -, -⟩ | ⟨hscan, -⟩
  · exact ⟨by simp [held, h, hscan], fun c => by simp [sent, h, hscan]⟩
  · refine ⟨by simp [held, h, hscan], fun c => ?_⟩
    cases c <;> simp [sent, h, hscan]

theorem steady_of_scan {d : Dispatcher α} {i : Nat} (h : d.phase = scan i d.sources) :
    d.Steady := by
  rcases scan_cases (α := α) i d.sources with ⟨j, s, hscan, hs, hne⟩ | ⟨hscan, hall⟩
  · simpa only [Steady, h, hscan] using ⟨s, hs, hne⟩
  · simpa only [Steady, h, hscan] using ⟨hall, List.suffix_rfl⟩

/-- Only a source that is draining is checked. -/
theorem Steady.draining_of_checking {d : Dispatcher α} (h : d.Steady) {i : Nat}
    (hphase : d.phase = .checking i) : d.sources[i]? = some .draining := by
  simpa only [Steady, hphase] using h

theorem prompt_of_not_draining {d : Dispatcher α}
    (h : ∀ i : Nat, d.sources[i]? ≠ some SourceStatus.draining) : d.Prompt :=
  fun i hi => absurd hi (h i)

/-- Only a source from which no end mark was taken is looked at. -/
theorem Steady.active_of_polling {d : Dispatcher α} (h : d.Steady) (hprompt : d.Prompt) {i : Nat}
    (hphase : d.phase = .polling i) : d.sources[i]? = some .active := by
  simp only [Steady, hphase] at h
  obtain ⟨s, hs, hne⟩ := h
  cases s with
  | active => exact hs
  -- a source that drains would be checked before the next look
  | draining =>
      have hchecking := hprompt i hs
      rw [hphase] at hchecking
      cases hchecking
  | done => exact absurd rfl hne

/-- Only while a source is checked can one be draining. -/
theorem Prompt.not_draining {d : Dispatcher α} (h : d.Prompt) (hphase : ∀ i, d.phase ≠ .checking i)
    (i : Nat) : d.sources[i]? ≠ some .draining :=
  fun hi => hphase i (h i hi)

/-! ### The outcome of a step -/

@[simp] theorem sources_afterPoll (d : Dispatcher α) (i : Nat) :
    (d.afterPoll i).sources = d.sources := by
  unfold afterPoll
  split <;> rfl

@[simp] theorem report_afterPoll (d : Dispatcher α) (i : Nat) :
    (d.afterPoll i).report = d.report := by
  unfold afterPoll
  split <;> rfl

/-- After a look at a source the dispatcher checks it, or goes on with its pass. -/
theorem phase_afterPoll (d : Dispatcher α) (i : Nat) :
    (d.afterPoll i).phase =
      if d.sources[i]? = some .draining then .checking i else scan (i + 1) d.sources := by
  unfold afterPoll
  split <;> rfl

theorem held_sent_afterPoll (d : Dispatcher α) (i : Nat) :
    (d.afterPoll i).held = [] ∧ ∀ c, (d.afterPoll i).sent c = 0 := by
  by_cases hdraining : d.sources[i]? = some .draining
  · have hphase : (d.afterPoll i).phase = .checking i := by rw [phase_afterPoll, if_pos hdraining]
    exact ⟨by simp [held, hphase], fun c => by simp [sent, hphase]⟩
  · exact held_sent_of_scan (i := i + 1)
      (by rw [phase_afterPoll, if_neg hdraining, sources_afterPoll])

theorem steady_afterPoll (d : Dispatcher α) (i : Nat) : (d.afterPoll i).Steady := by
  by_cases hdraining : d.sources[i]? = some .draining
  · have hphase : (d.afterPoll i).phase = .checking i := by rw [phase_afterPoll, if_pos hdraining]
    simpa only [Steady, hphase, sources_afterPoll] using hdraining
  · exact steady_of_scan (i := i + 1) (by rw [phase_afterPoll, if_neg hdraining, sources_afterPoll])

theorem prompt_afterPoll {d : Dispatcher α} {i : Nat}
    (h : ∀ j, j ≠ i → d.sources[j]? ≠ some .draining) : (d.afterPoll i).Prompt := by
  intro j hj
  rw [sources_afterPoll] at hj
  by_cases hji : j = i
  · subst hji
    rw [phase_afterPoll, if_pos hj]
  · exact absurd hj (h j hji)

/-- A dispatcher begins with a pass. -/
theorem phase_start (n : Nat) :
    (start n : Dispatcher α).phase = scan 0 (start n : Dispatcher α).sources := rfl

theorem sources_start (n : Nat) :
    (start n : Dispatcher α).sources = List.replicate n .active := rfl

theorem prompt_start (n : Nat) : (start n : Dispatcher α).Prompt := by
  apply prompt_of_not_draining
  intro i hi
  rw [sources_start, List.getElem?_replicate] at hi
  split at hi <;> cases hi

/-! ### Closing -/

/-- Which categories can be left when end marks are sent. -/
theorem Steady.closing_cases {d : Dispatcher α} (h : d.Steady) {c : Category} {cs : List Category}
    (hphase : d.phase = .closing c cs) :
    (c = .sports ∧ cs = [.news, .weather]) ∨ (c = .news ∧ cs = [.weather]) ∨
      (c = .weather ∧ cs = []) := by
  simp only [Steady, hphase] at h
  have hsuffix := h.2
  -- what is left is a non-empty end of the fixed order of the categories
  simp only [Category.all, List.suffix_cons_iff, List.cons.injEq, List.suffix_nil, reduceCtorEq,
    or_false] at hsuffix
  exact hsuffix

/-- When end marks are sent all sources are done. -/
theorem Steady.all_done {d : Dispatcher α} (h : d.Steady) {c : Category} (hsent : d.sent c = 1) :
    ∀ s ∈ d.sources, s = .done := by
  unfold Steady at h
  unfold sent at hsent
  cases hphase : d.phase with
  | closing next cs =>
      rw [hphase] at h
      exact h.1
  | finished =>
      rw [hphase] at h
      exact h
  | polling i => simp [hphase] at hsent
  | routing i next body => simp [hphase] at hsent
  | checking i => simp [hphase] at hsent

/-- When every category has its end mark the dispatcher is finished. -/
theorem Steady.phase_eq_finished {d : Dispatcher α} (h : d.Steady) (hsent : ∀ c, d.sent c = 1) :
    d.phase = .finished := by
  cases hphase : d.phase with
  | finished => rfl
  | closing next cs =>
      have hlast := hsent .weather
      rcases h.closing_cases hphase with ⟨rfl, rfl⟩ | ⟨rfl, rfl⟩ | ⟨rfl, rfl⟩ <;>
        simp [sent, hphase] at hlast
  | polling i => simpa [sent, hphase] using hsent .weather
  | routing i next body => simpa [sent, hphase] using hsent .weather
  | checking i => simpa [sent, hphase] using hsent .weather

theorem sources_closed (d : Dispatcher α) (cs : List Category) :
    (d.closed cs).1.sources = d.sources := by
  cases cs <;> rfl

theorem held_closed (d : Dispatcher α) (cs : List Category) : (d.closed cs).1.held = [] := by
  cases cs <;> rfl

theorem Steady.closed {d : Dispatcher α} (h : d.Steady) {c : Category} {cs : List Category}
    (hphase : d.phase = .closing c cs) : (d.closed cs).1.Steady := by
  have hcs := h.closing_cases hphase
  simp only [Steady, hphase] at h
  rcases hcs with ⟨-, rfl⟩ | ⟨-, rfl⟩ | ⟨-, rfl⟩
  · exact ⟨h.1, by decide⟩
  · exact ⟨h.1, by decide⟩
  · exact h.1

/-- One more category has its end mark. -/
theorem Steady.sent_closed {d : Dispatcher α} (h : d.Steady) {c : Category} {cs : List Category}
    (hphase : d.phase = .closing c cs) (e : Category) :
    d.sent c = 0 ∧ (d.closed cs).1.sent e = if e = c then 1 else d.sent e := by
  rcases h.closing_cases hphase with ⟨rfl, rfl⟩ | ⟨rfl, rfl⟩ | ⟨rfl, rfl⟩ <;>
    cases e <;> simp [sent, hphase, Dispatcher.closed]

/-! ### Counts -/

/-- The counts of a dispatcher tell what it knows of its sources and what it has
sent. -/
structure Truthful (d : Dispatcher α) : Prop where
  dropped : d.report.dropped = 0
  received : d.report.sentinelsReceived = exactSum (d.sources.map SourceStatus.received)
  sent : d.report.sentinelsSent = d.sent .sports + d.sent .news + d.sent .weather

/-- While no end mark is sent the counts stay true, as long as those of the end marks
that were taken do. -/
theorem Truthful.of_none_sent {d d' : Dispatcher α} (h : d.Truthful) (hd : ∀ c, d.sent c = 0)
    (hd' : ∀ c, d'.sent c = 0) (hdropped : d'.report.dropped = d.report.dropped)
    (hsent : d'.report.sentinelsSent = d.report.sentinelsSent)
    (hreceived : d'.report.sentinelsReceived = exactSum (d'.sources.map SourceStatus.received)) :
    d'.Truthful where
  dropped := hdropped.trans h.dropped
  received := hreceived
  sent := by rw [hsent, h.sent, hd, hd, hd, hd', hd', hd']

theorem Truthful.closed {d : Dispatcher α} (h : d.Truthful) (hsteady : d.Steady) {c : Category}
    {cs : List Category} (hphase : d.phase = .closing c cs) : (d.closed cs).1.Truthful := by
  have hsent := hsteady.sent_closed hphase
  have hreport : (d.closed cs).1.report =
      { d.report with sentinelsSent := d.report.sentinelsSent + 1 } := by
    cases cs <;> rfl
  refine ⟨?_, ?_, ?_⟩
  · rw [hreport]
    exact h.dropped
  · rw [hreport, sources_closed]
    exact h.received
  · have hbefore := (hsent c).1
    rw [hreport, (hsent _).2, (hsent _).2, (hsent _).2]
    show d.report.sentinelsSent + 1 = _
    rw [h.sent]
    cases c <;> simp [hbefore] <;> omega

end Dispatcher

end Newsroom
