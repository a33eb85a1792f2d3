import Newsroom.Proofs.Dispatch.Rounds
import Newsroom.Proofs.Dispatch.Transcript

/-!
# A dispatcher on its rounds

A dispatcher whose sources nobody fills any more takes from them in rounds: one message of every
source that has any left, in the order of the sources.

## Main Definitions

* `Dispatcher.Finds` — what a deed shows of the sources and leaves of them
* `Dispatcher.Turning` — how far a dispatcher has come on its rounds
* `Dispatcher.effort` — a bound of what a dispatcher can do before it takes a message again

## Main Statements

* `Turning.start`, `Turning.does` — a dispatcher stays on its rounds
* `Turning.complete` — when all sources are done their messages were taken in turn
* `Turning.not_missed` — no look is in vain while every source has an end mark
* `Turning.active` — a source without an end mark stays active
* `Does.effort_lt` — every step that is not such a look uses up some effort
-/

namespace Newsroom.Dispatcher

open Rounds (Progress inTurn)

variable {α : Type}

/-- What a deed shows of the messages in the sources, and what is left of them. -/
def Finds (items items' : List (List (Message α))) : Deed α → Prop
  | .took i m => ∃ rest, items[i]? = some (m :: rest) ∧ items' = items.set i rest
  | .missed i => items[i]? = some [] ∧ items' = items
  | .routed _ _ _ => items' = items
  | .checked i empty => (∃ l, items[i]? = some l ∧ empty = l.isEmpty) ∧ items' = items
  | .closed _ => items' = items

/-- A dispatcher that goes on with its round at a place has this place before it. -/
def Faces (d : Dispatcher α) (i : Nat) : Prop :=
  match d.phase with
  | .polling j => i = j
  | .routing j _ _ => i = j + 1
  | .checking j => i = j + 1
  | _ => True

/-- A dispatcher that took from a source and has not gone on to the next. -/
def Attends (d : Dispatcher α) (i : Nat) : Prop :=
  match d.phase with
  | .routing j _ _ => i = j
  | .checking j => i = j
  | _ => False

/-- A dispatcher on its rounds through some lists of messages, of which some are left and some
were taken. -/
structure Turning (lists : List (List (Message α))) (d : Dispatcher α)
    (items : List (List (Message α))) (taken : List (Nat × Message α)) : Prop where
  length : d.sources.length = lists.length
  progress : ∃ k i, i ≤ lists.length ∧ Progress lists k i items taken ∧ d.Faces i
  /-- Nothing is left in a source that is done. -/
  done : ∀ (i : Nat) (l : List (Message α)), d.sources[i]? = some .done → items[i]? = some l →
    l = []
  /-- Something is left in a source that drains, unless the dispatcher is about to check it. -/
  draining : ∀ (i : Nat) (l : List (Message α)), d.sources[i]? = some .draining →
    items[i]? = some l → l ≠ [] ∨ d.Attends i

/-! ### Passes -/

variable {lists items items' : List (List (Message α))} {taken : List (Nat × Message α)}
  {d d' : Dispatcher α} {i j k : Nat}

/-- A pass leaves out only what is done. -/
theorem nextFrom?_between {sources : List SourceStatus} (h : nextFrom? i sources = some j) :
    i ≤ j ∧ ∀ x, i ≤ x → x < j → sources[x]? = some .done := by
  obtain ⟨n, hn, rfl⟩ := Option.map_eq_some_iff.1 h
  obtain ⟨hlt, -, hbetween⟩ := List.findIdx?_eq_some_iff_getElem.1 hn
  refine ⟨Nat.le_add_right i n, fun x hix hxj => ?_⟩
  have hx : x - i < n := by omega
  have hdone : (sources.drop i)[x - i] = .done := by simpa using hbetween (x - i) hx
  rw [← hdone, ← List.getElem?_eq_getElem, List.getElem?_drop, Nat.add_sub_cancel' hix]

theorem nextFrom?_none {sources : List SourceStatus} (h : nextFrom? i sources = none) {x : Nat}
    (hix : i ≤ x) {s : SourceStatus} (hs : sources[x]? = some s) : s = .done := by
  refine nextFrom?_eq_none h s (List.mem_of_getElem? (i := x - i) ?_)
  rw [List.getElem?_drop, Nat.add_sub_cancel' hix, hs]

/-- A dispatcher that goes on with its pass faces the next source that has anything left. -/
theorem exists_faces_of_scan (hlength : d.sources.length = lists.length)
    (hdone : ∀ (i : Nat) (l : List (Message α)), d.sources[i]? = some .done → items[i]? = some l →
      l = [])
    (h : Progress lists k i items taken) (hi : i ≤ lists.length)
    (hphase : d.phase = scan i d.sources) :
    ∃ k j, j ≤ lists.length ∧ Progress lists k j items taken ∧ d.Faces j := by
  have hlt : ∀ j s, d.sources[j]? = some s → j ≤ lists.length := by
    intro j s hs
    rw [← hlength]
    exact Nat.le_of_lt (List.getElem?_eq_some_iff.1 hs).1
  have hrest : nextFrom? i d.sources = none → ∀ x, i ≤ x → ∀ l, items[x]? = some l → l = [] := by
    intro hnone x hix l hl
    have hx : x < d.sources.length := by
      rw [hlength, ← h.length_eq]
      exact (List.getElem?_eq_some_iff.1 hl).1
    have hs := List.getElem?_eq_getElem hx
    exact hdone x l (hs.trans (congrArg some (nextFrom?_none hnone hix hs))) hl
  unfold scan at hphase
  cases hnext : nextFrom? i d.sources with
  | some j =>
      rw [hnext] at hphase
      obtain ⟨hij, hbetween⟩ := nextFrom?_between hnext
      obtain ⟨s, hs, -⟩ := nextFrom?_eq_some hnext
      refine ⟨k, j, hlt j s hs, ?_, by simp [Faces, hphase]⟩
      exact h.skip_to hij fun x hix hxj l hl => hdone x l (hbetween x hix hxj) hl
  | none =>
      rw [hnext] at hphase
      cases hfirst : nextFrom? 0 d.sources with
      | some j =>
          rw [hfirst] at hphase
          obtain ⟨-, hbetween⟩ := nextFrom?_between hfirst
          obtain ⟨s, hs, -⟩ := nextFrom?_eq_some hfirst
          refine ⟨k + 1, j, hlt j s hs, ?_, by simp [Faces, hphase]⟩
          exact h.next_round hi (hrest hnext) fun x hxj l hl =>
            hdone x l (hbetween x (Nat.zero_le x) hxj) hl
      | none =>
          rw [hfirst] at hphase
          exact ⟨k, i, hi, h, by simp [Faces, hphase]⟩

/-- A dispatcher that has taken from a source what it wanted to stays on its rounds. -/
theorem turning_afterPoll (hlength : d.sources.length = lists.length)
    (hdone : ∀ (j : Nat) (l : List (Message α)), d.sources[j]? = some .done → items[j]? = some l →
      l = [])
    (hdraining : ∀ (j : Nat) (l : List (Message α)), j ≠ i → d.sources[j]? = some .draining →
      items[j]? = some l → l ≠ [])
    (h : Progress lists k (i + 1) items taken) (hi : i < lists.length) :
    Turning lists (d.afterPoll i) items taken := by
  by_cases hself : d.sources[i]? = some .draining
  · have hphase : (d.afterPoll i).phase = .checking i := by rw [phase_afterPoll, if_pos hself]
    refine
      { length := by rwa [sources_afterPoll]
        progress := ⟨k, i + 1, hi, h, by simp [Faces, hphase]⟩
        done := by rwa [sources_afterPoll]
        draining := fun j l hj hl => ?_ }
    rw [sources_afterPoll] at hj
    by_cases hji : j = i
    · exact .inr (by simp [Attends, hphase, hji])
    · exact .inl (hdraining j l hji hj hl)
  · have hphase : (d.afterPoll i).phase = scan (i + 1) (d.afterPoll i).sources := by
      rw [phase_afterPoll, if_neg hself, sources_afterPoll]
    refine
      { length := by rwa [sources_afterPoll]
        progress := exists_faces_of_scan (by rwa [sources_afterPoll]) (by rwa [sources_afterPoll])
          h hi hphase
        done := by rwa [sources_afterPoll]
        draining := fun j l hj hl => .inl ?_ }
    rw [sources_afterPoll] at hj
    refine hdraining j l ?_ hj hl
    rintro rfl
    exact hself hj

/-! ### Steps -/

theorem Turning.lt_of_source (h : Turning lists d items taken) {s : SourceStatus}
    (hs : d.sources[i]? = some s) : i < lists.length := by
  rw [← h.length]
  exact (List.getElem?_eq_some_iff.1 hs).1

/-- The place before a dispatcher that looks at a source. -/
theorem Turning.progress_of_polling (h : Turning lists d items taken)
    (hphase : d.phase = .polling i) :
    ∃ k, Progress lists k i items taken := by
  obtain ⟨k, j, -, hprogress, hfaces⟩ := h.progress
  obtain rfl : j = i := by simpa [Faces, hphase] using hfaces
  exact ⟨k, hprogress⟩

/-- A dispatcher that looks at a source attends to none. -/
theorem Turning.draining_of_polling (h : Turning lists d items taken)
    (hphase : d.phase = .polling i)
    {l : List (Message α)} (hj : d.sources[j]? = some .draining) (hl : items[j]? = some l) :
    l ≠ [] :=
  (h.draining j l hj hl).resolve_right (by simp [Attends, hphase])

theorem Turning.start (lists : List (List (Message α))) :
    Turning lists (Dispatcher.start lists.length) lists [] := by
  have hlength : (Dispatcher.start lists.length : Dispatcher α).sources.length = lists.length := by
    rw [sources_start, List.length_replicate]
  have hactive : ∀ (i : Nat) (s : SourceStatus),
      (Dispatcher.start lists.length : Dispatcher α).sources[i]? = some s → s = .active := by
    intro i s hs
    rw [sources_start] at hs
    exact List.eq_of_mem_replicate (List.mem_of_getElem? hs)
  have hdone : ∀ (i : Nat) (l : List (Message α)),
      (Dispatcher.start lists.length : Dispatcher α).sources[i]? = some .done →
        lists[i]? = some l → l = [] :=
    fun i l hs _ => nomatch hactive i _ hs
  exact
    { length := hlength
      progress := exists_faces_of_scan hlength hdone (.start lists) (Nat.zero_le _) (phase_start _)
      done := hdone
      draining := fun i l hs _ => nomatch hactive i _ hs }

variable [Payload α] {names : Nat → String} {deeds : List (Deed α)} {deed : Deed α}
  {es events : List Event}

/-- A message that was taken from a source. -/
theorem Turning.take (h : Turning lists d items taken) (hsteady : d.Steady)
    (hphase : d.phase = .polling i) {m : Message α} {rest : List (Message α)}
    (hi : items[i]? = some (m :: rest)) (name : String) :
    Turning lists (d.polled i name (some m)).1 (items.set i rest) (taken ++ [(i, m)]) := by
  obtain ⟨k, hprogress⟩ := h.progress_of_polling hphase
  obtain ⟨s, hs, hne⟩ := hsteady.not_done_of_polling hphase
  have hlt := h.lt_of_source hs
  have htaken := hprogress.take hi
  have hdone : ∀ (j : Nat) (l : List (Message α)), d.sources[j]? = some .done →
      (items.set i rest)[j]? = some l → l = [] := by
    intro j l hj hl
    by_cases hji : j = i
    · subst hji
      exact absurd (Option.some.inj (hs.symm.trans hj)) hne
    · rw [List.getElem?_set_ne (Ne.symm hji)] at hl
      exact h.done j l hj hl
  have hdraining : ∀ (j : Nat) (l : List (Message α)), j ≠ i → d.sources[j]? = some .draining →
      (items.set i rest)[j]? = some l → l ≠ [] := by
    intro j l hji hj hl
    rw [List.getElem?_set_ne (Ne.symm hji)] at hl
    exact h.draining_of_polling hphase hj hl
  cases m with
  | done =>
      refine turning_afterPoll (k := k) ?_ ?_ ?_ htaken hlt
      · simpa [receiveDone] using h.length
      · intro j l hj hl
        by_cases hji : j = i
        · subst hji
          rw [receiveDone, List.getElem?_set_self (List.getElem?_eq_some_iff.1 hs).1] at hj
          cases hj
        · rw [receiveDone, List.getElem?_set_ne (Ne.symm hji)] at hj
          exact hdone j l hj hl
      · intro j l hji hj hl
        rw [receiveDone, List.getElem?_set_ne (Ne.symm hji)] at hj
        exact hdraining j l hji hj hl
  | item body =>
      cases hc : Category.classify (Payload.text body) with
      | none =>
          simp only [polled, hc]
          exact turning_afterPoll (k := k) h.length hdone hdraining htaken hlt
      | some c =>
          simp only [polled, hc]
          refine
            { length := h.length
              progress := ⟨k, i + 1, hlt, htaken, by simp [Faces]⟩
              done := hdone
              draining := fun j l hj hl => ?_ }
          by_cases hji : j = i
          · exact .inr (by simp [Attends, hji])
          · exact .inl (hdraining j l hji hj hl)

omit [Payload α] in
/-- A look at a source in which nothing is left. -/
theorem Turning.miss (h : Turning lists d items taken) (hsteady : d.Steady)
    (hphase : d.phase = .polling i) (hi : items[i]? = some []) :
    Turning lists (d.afterPoll i) items taken := by
  obtain ⟨k, hprogress⟩ := h.progress_of_polling hphase
  obtain ⟨s, hs, -⟩ := hsteady.not_done_of_polling hphase
  refine turning_afterPoll (k := k) h.length h.done ?_ ?_ (h.lt_of_source hs)
  · intro j l _ hj hl
    exact h.draining_of_polling hphase hj hl
  · refine hprogress.skip ?_
    intro l hl
    exact Option.some.inj (hl.symm.trans hi)

omit [Payload α] in
/-- A text that was put into the queue of its category. -/
theorem Turning.route (h : Turning lists d items taken) {c : Category} {body : α}
    (hphase : d.phase = .routing i c body) : Turning lists (d.routed i c) items taken := by
  obtain ⟨k, j, hj, hprogress, hfaces⟩ := h.progress
  obtain rfl : j = i + 1 := by simpa [Faces, hphase] using hfaces
  refine turning_afterPoll h.length h.done ?_ hprogress hj
  intro x l hx hdraining hl
  exact (h.draining x l hdraining hl).resolve_right (by simpa [Attends, hphase] using hx)

omit [Payload α] in
/-- A source that was seen to be empty, or not. -/
theorem Turning.check (h : Turning lists d items taken) (hsteady : d.Steady)
    (hphase : d.phase = .checking i) {l : List (Message α)} (hl : items[i]? = some l) :
    Turning lists (d.checked i l.isEmpty) items taken := by
  obtain ⟨k, j, hj, hprogress, hfaces⟩ := h.progress
  obtain rfl : j = i + 1 := by simpa [Faces, hphase] using hfaces
  have hself := hsteady.draining_of_checking hphase
  have hother : ∀ (x : Nat) (r : List (Message α)), x ≠ i → d.sources[x]? = some .draining →
      items[x]? = some r → r ≠ [] := by
    intro x r hx hdraining hr
    exact (h.draining x r hdraining hr).resolve_right (by simpa [Attends, hphase] using hx)
  cases l with
  | cons m rest =>
      refine
        { length := h.length
          progress := exists_faces_of_scan h.length h.done hprogress hj rfl
          done := h.done
          draining := fun x r hdraining hr => .inl ?_ }
      by_cases hx : x = i
      · subst hx
        cases hl.symm.trans hr
        exact List.cons_ne_nil m rest
      · exact hother x r hx hdraining hr
  | nil =>
      have hlength : (d.checked i true).sources.length = lists.length :=
        List.length_set.trans h.length
      have hdone : ∀ (x : Nat) (r : List (Message α)), (d.checked i true).sources[x]? = some .done →
          items[x]? = some r → r = [] := by
        intro x r hx hr
        by_cases hxi : x = i
        · subst hxi
          exact Option.some.inj (hr.symm.trans hl)
        · exact h.done x r ((List.getElem?_set_ne (Ne.symm hxi)).symm.trans hx) hr
      refine
        { length := hlength
          progress := exists_faces_of_scan hlength hdone hprogress hj rfl
          done := hdone
          draining := fun x r hdraining hr => .inl ?_ }
      have hxi : x ≠ i := by
        rintro rfl
        have hset := List.getElem?_set_self (a := SourceStatus.done)
          (List.getElem?_eq_some_iff.1 hself).1
        cases hset.symm.trans hdraining
      exact hother x r hxi ((List.getElem?_set_ne (Ne.symm hxi)).symm.trans hdraining) hr

omit [Payload α] in
/-- An end mark that was put into the queue of a category. -/
theorem Turning.close (h : Turning lists d items taken) {c : Category} {cs : List Category}
    (hphase : d.phase = .closing c cs) : Turning lists (d.closed cs).1 items taken := by
  obtain ⟨k, j, hj, hprogress, -⟩ := h.progress
  refine
    { length := by rw [sources_closed]; exact h.length
      progress := ⟨k, j, hj, hprogress, by cases cs <;> trivial⟩
      done := by rw [sources_closed]; exact h.done
      draining := fun x l hdraining hl => .inl ?_ }
  rw [sources_closed] at hdraining
  exact (h.draining x l hdraining hl).resolve_right (by simp [Attends, hphase])

/-- A dispatcher stays on its rounds with every step. -/
theorem Turning.does (h : Turning lists d items taken) (hsteady : d.Steady)
    (hdoes : Does names d deed d' es) (hfinds : Finds items items' deed) :
    Turning lists d' items' (taken ++ deed.taking?.toList) := by
  cases hdoes with
  | @take i m hphase =>
      obtain ⟨rest, hi, rfl⟩ := hfinds
      exact h.take hsteady hphase hi _
  | @miss i hphase =>
      obtain ⟨hi, rfl⟩ := hfinds
      simpa using h.miss hsteady hphase hi
  | route hphase =>
      cases hfinds
      simpa using h.route hphase
  | check empty hphase =>
      obtain ⟨⟨l, hl, rfl⟩, rfl⟩ := hfinds
      simpa using h.check hsteady hphase hl
  | close hphase =>
      cases hfinds
      simpa using h.close hphase

/-! ### Ends -/

omit [Payload α] in
/-- When all sources are done nothing is left, and their messages were taken in turn. -/
theorem Turning.complete (h : Turning lists d items taken) (hall : ∀ s ∈ d.sources, s = .done) :
    (∀ l ∈ items, l = []) ∧ taken = inTurn lists := by
  obtain ⟨k, i, hi, hprogress, -⟩ := h.progress
  have hempty : ∀ l ∈ items, l = [] := by
    intro l hl
    obtain ⟨j, hj⟩ := List.mem_iff_getElem?.1 hl
    have hlt : j < d.sources.length := by
      rw [h.length, ← hprogress.length_eq]
      exact (List.getElem?_eq_some_iff.1 hj).1
    refine h.done j l ?_ hj
    rw [List.getElem?_eq_getElem hlt, hall _ (List.getElem_mem hlt)]
  exact ⟨hempty, hprogress.complete hi hempty⟩

/-- A source from which no end mark was taken, but which had one, is not empty. -/
theorem Turning.not_missed (h : Turning lists d items (takings deeds))
    (haccount : Account names deeds d events) (hmarks : ∀ l ∈ lists, .done ∈ l)
    (hphase : d.phase = .polling i) : items[i]? ≠ some [] := by
  intro hempty
  obtain ⟨s, hs, hne⟩ := haccount.steady.not_done_of_polling hphase
  obtain ⟨k, hprogress⟩ := h.progress_of_polling hphase
  cases s with
  | active =>
      have huntaken := (haccount.known.active i _ hs).1 rfl
      have hlt := h.lt_of_source hs
      have hmark := hmarks _ (List.getElem_mem hlt)
      rcases hprogress.untaken (List.getElem?_eq_getElem hlt) hmark with htaken | ⟨r, hr, hmem⟩
      · exact huntaken (mem_takings.1 htaken)
      · cases hempty.symm.trans hr
        cases hmem
  | draining => exact h.draining_of_polling hphase hs hempty rfl
  | done => exact hne rfl

/-- A source that had no end mark stays active. -/
theorem Turning.active (h : Turning lists d items (takings deeds))
    (haccount : Account names deeds d events) {l : List (Message α)} (hl : lists[i]? = some l)
    (hnone : .done ∉ l) : d.sources[i]? = some .active := by
  have hlt : i < d.sources.length := by
    rw [h.length]
    exact (List.getElem?_eq_some_iff.1 hl).1
  have hs := List.getElem?_eq_getElem hlt
  refine hs.trans (congrArg some ((haccount.known.active i _ hs).2 fun htook => ?_))
  obtain ⟨k, j, -, hprogress, -⟩ := h.progress
  obtain ⟨l', hl', hmem⟩ := hprogress.mem (mem_takings.2 htook)
  cases hl.symm.trans hl'
  exact hnone hmem

/-! ### Effort -/

/-- What a dispatcher can still do before it takes a message, and in the end. -/
def effort (d : Dispatcher α) : Nat :=
  match d.phase with
  | .polling _ => 6
  | .routing _ _ _ => 9
  | .checking _ => 7
  | .closing _ cs => 2 * (1 + cs.length)
  | .finished => 0

omit [Payload α] in
theorem effort_of_scan (h : d.phase = scan i d.sources) : d.effort = 6 := by
  rcases scan_cases (α := α) i d.sources with ⟨j, s, hscan, -, -⟩ | ⟨hscan, -⟩
  · simp [effort, h, hscan]
  · simp [effort, h, hscan]

omit [Payload α] in
theorem effort_afterPoll_le (d : Dispatcher α) (i : Nat) : (d.afterPoll i).effort ≤ 7 := by
  by_cases hdraining : d.sources[i]? = some .draining
  · simp [effort, phase_afterPoll, hdraining]
  · have hphase : (d.afterPoll i).phase = scan (i + 1) (d.afterPoll i).sources := by
      rw [phase_afterPoll, if_neg hdraining, sources_afterPoll]
    rw [effort_of_scan hphase]
    decide

/-- A message that is taken is worth four steps, and one that is put into the queue of a category
costs one. -/
theorem Does.effort_lt (hdoes : Does names d deed d' es) (hmiss : ∀ i, deed ≠ .missed i) :
    d'.effort + deed.putting?.toList.length < d.effort + 4 * deed.taking?.toList.length := by
  cases hdoes with
  | @take i m hphase =>
      have hbefore : d.effort = 6 := by simp [effort, hphase]
      have hafter : (d.polled i (names i) (some m)).1.effort ≤ 9 := by
        cases m with
        | done => exact Nat.le_trans (effort_afterPoll_le _ i) (by decide)
        | item body =>
            cases hc : Category.classify (Payload.text body) with
            | none =>
                simp only [polled, hc]
                exact Nat.le_trans (effort_afterPoll_le _ i) (by decide)
            | some c => simp [polled, hc, effort]
      show _ + 0 < _ + 4 * 1
      omega
  | miss hphase => exact absurd rfl (hmiss _)
  | @route i c body hphase =>
      have hbefore : d.effort = 9 := by simp [effort, hphase]
      have hafter : (d.routed i c).effort ≤ 7 := effort_afterPoll_le _ i
      show _ + 1 < _ + 0
      omega
  | @check i empty hphase =>
      have hbefore : d.effort = 7 := by simp [effort, hphase]
      have hafter : (d.checked i empty).effort = 6 := effort_of_scan rfl
      show _ + 0 < _ + 0
      omega
  | @close c cs hphase =>
      have hbefore : d.effort = 2 * (1 + cs.length) := by simp [effort, hphase]
      have hafter : (d.closed cs).1.effort = 2 * cs.length := by
        cases cs with
        | nil => rfl
        | cons next rest =>
            show 2 * (1 + rest.length) = 2 * (rest.length + 1)
            omega
      show _ + 1 < _ + 0
      omega

end Newsroom.Dispatcher
