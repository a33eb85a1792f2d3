import Newsroom.Proofs.Dispatch.Junction

/-!
# Nothing is lost at a junction

What a dispatcher takes from sources that other threads fill in any way, and what becomes of it.

## Main Definitions

* `Act.looksAt` — what the dispatcher does at a source
* `textsOf` — the texts of a category among those that are routed

## Main Statements

* `Attended.status` — how the state of a source changes
* `Attended.not_checked` — the dispatcher does nothing at a source that is done
* `Attended.checked` — what is left in a source that is seen to be empty
* `Attended.arrived` — what arrives in the buffer of a category
* `Attended.all_checked` — an end mark goes to a category only when all sources are done
* `loses_nothing` — what has been taken, counted and handed on, whatever the threads do

## Design Notes

A source may get a message between the look of the dispatcher and its check.  What keeps it from
being lost is the number of the messages: it lags behind the ring only as long as a thread has the
lock, and the insertion of this thread has not returned.
-/

namespace Newsroom.Junction

open Buffer (Arrival arrivals pushes messagesOf)
open Dispatcher (Deed isTextOf)

variable {α : Type} [Payload α] {s₀ s s' : Junction α} {acts : List (Act α)} {deeds : List (Deed α)}
  {i : Nat} {c : Category}

/-! ### The states of the sources -/

omit [Payload α] in
theorem mem_act_taken {x : Act α} {m : Message α} :
    (i, m) ∈ x.taken ↔ x = .source i 0 (.does (.returnRemove m)) := by
  constructor
  · intro hmem
    unfold Act.taken at hmem
    split at hmem
    · obtain ⟨rfl, rfl⟩ := by simpa using hmem
      rfl
    · cases hmem
  · rintro rfl
    exact List.mem_singleton_self _

/-- What is known of a source, by what was done. -/
theorem Attended.known (h : Attended s₀ s acts deeds) {st : SourceStatus}
    (hst : s.dispatcher.sources[i]? = some st) :
    (st = .active ↔ (i, .done) ∉ taken acts) ∧ (st = .done ↔ .check i true ∈ acts) := by
  rw [← h.takings, Dispatcher.mem_takings, ← h.checks]
  exact ⟨h.account.known.active i st hst, h.account.known.done i st hst⟩

theorem Attended.length_statuses (h : Attended s₀ s acts deeds) :
    s.dispatcher.sources.length = s₀.sources.length := by
  have hlength := congrArg List.length h.names
  rw [List.length_map, List.length_map] at hlength
  exact h.statuses.trans hlength

/-- A step leaves the state of a source, or takes its first end mark, or sees that it is empty
after that. -/
theorem Attended.status (h : Attended s₀ s acts deeds) {st : SourceStatus} {x : Act α}
    (hst : s.dispatcher.sources[i]? = some st) (hstep : Step s x s') :
    ∃ st', s'.dispatcher.sources[i]? = some st' ∧
      (st' = st ∨
        (st = .active ∧ st' = .draining ∧ x = .source i 0 (.does (.returnRemove .done))) ∨
        (st = .draining ∧ st' = .done ∧ x = .check i true)) := by
  obtain ⟨deeds', h'⟩ := h.step hstep
  have hlt : i < s'.dispatcher.sources.length := by
    rw [h'.length_statuses, ← h.length_statuses]
    exact (List.getElem?_eq_some_iff.1 hst).1
  have hst' := List.getElem?_eq_getElem hlt
  refine ⟨_, hst', ?_⟩
  obtain ⟨hactive, hdone⟩ := h.known hst
  obtain ⟨hactive', hdone'⟩ := h'.known hst'
  rw [taken_concat, List.mem_append, not_or, mem_act_taken] at hactive'
  rw [List.mem_append, List.mem_singleton] at hdone'
  generalize s'.dispatcher.sources[i] = st' at hactive' hdone' ⊢
  -- what was known before stays known, and the rest has come with this step
  cases st with
  | active =>
      cases st' with
      | active => exact .inl rfl
      | draining =>
          refine .inr (.inl ⟨rfl, rfl, ?_⟩)
          simpa [hactive.1 rfl] using hactive'
      | done =>
          rcases hdone'.1 rfl with hbefore | hnow
          · cases hdone.2 hbefore
          · have hnone := hactive'.2 ⟨hactive.1 rfl, fun htook => nomatch hnow.trans htook⟩
            cases hnone
  | draining =>
      cases st' with
      | active =>
          have hmissing := (hactive'.1 rfl).1
          cases hactive.2 hmissing
      | draining => exact .inl rfl
      | done =>
          rcases hdone'.1 rfl with hbefore | hnow
          · cases hdone.2 hbefore
          · exact .inr (.inr ⟨rfl, rfl, hnow.symm⟩)
  | done => exact .inl (hdone'.2 (.inl (hdone.1 rfl)))

/-- What the dispatcher does at a source. -/
def Act.looksAt (i : Nat) : Act α → Bool
  | source k 0 _ => k = i
  | check k _ => k = i
  | _ => false

/-- The dispatcher does nothing at a source that is done. -/
theorem Attended.not_checked (h : Attended s₀ s acts deeds) {x : Act α} (hstep : Step s x s')
    (hlooks : x.looksAt i = true) : .check i true ∉ acts := by
  obtain ⟨st, hst, hne⟩ : ∃ st, s.dispatcher.sources[i]? = some st ∧ st ≠ .done := by
    cases hstep with
    | poll hphase hp hcall hfound =>
        cases of_decide_eq_true hlooks
        exact h.account.steady.not_done_of_polling hphase
    | find hphase hp hcall hfound =>
        cases of_decide_eq_true hlooks
        exact h.account.steady.not_done_of_polling hphase
    | look hphase hp =>
        cases of_decide_eq_true hlooks
        exact ⟨_, h.account.steady.draining_of_checking hphase, nofun⟩
    | put hgives hcall hreturn => cases hlooks
    | give hgives hcall => cases hlooks
    | otherSource hp hact => cases hlooks
    | otherCategory hact => cases hlooks
  exact fun hmem => hne ((h.known hst).2.2 hmem)

/-- What is left in a source that the dispatcher sees to be empty. -/
theorem Attended.checked (h : Attended s₀ s acts deeds) (hstep : Step s (.check i true) s') :
    ∃ es left, arrivals (atSource i acts) = es ++ left ∧
      es.map Arrival.message = messagesOf i (taken acts) ∧ left.length ≤ 1 ∧
      ∀ e ∈ left, e.returned = false := by
  generalize hx : (.check i true : Act α) = x at hstep
  cases hstep with
  | @look k p hphase hp =>
      obtain ⟨rfl, hempty⟩ := Act.check.inj hx
      refine ((h.sources i p hp).mono fun hk => ?_).left (beq_iff_eq.1 hempty.symm)
      cases hphase.symm.trans hk
  | poll hphase hp hcall hfound => cases hx
  | find hphase hp hcall hfound => cases hx
  | put hgives hcall hreturn => cases hx
  | give hgives hcall => cases hx
  | otherSource hp hact => cases hx
  | otherCategory hact => cases hx

/-! ### The categories -/

/-- The categories of which the end mark was put are the first ones. -/
theorem Attended.marks (h : Attended s₀ s acts deeds) (c : Category) :
    (Dispatcher.closings deeds).filter (fun e => e = c) = [] ∨
      (Dispatcher.closings deeds).filter (fun e => e = c) = [c] ∧
        c ∉ s.dispatcher.unclosed := by
  have hall :
      (Dispatcher.closings deeds ++ s.dispatcher.unclosed).filter (fun e => e = c) = [c] := by
    rw [h.account.closings]
    cases c <;> rfl
  rw [List.filter_append] at hall
  rcases List.append_eq_singleton_iff.1 hall with ⟨hclosed, -⟩ | ⟨hclosed, hunclosed⟩
  · exact .inl hclosed
  · refine .inr ⟨hclosed, fun hmem => ?_⟩
    have hfilter : c ∈ s.dispatcher.unclosed.filter (fun e => e = c) :=
      List.mem_filter.2 ⟨hmem, decide_eq_true rfl⟩
    rw [hunclosed] at hfilter
    cases hfilter

/-- A category has no end mark or one. -/
theorem Attended.marks_eq (h : Attended s₀ s acts deeds) (c : Category) :
    (((Dispatcher.closings deeds).filter fun e => e = c).map fun _ => (.done : Message α)) = [] ∨
      (((Dispatcher.closings deeds).filter fun e => e = c).map fun _ => (.done : Message α)) =
        [.done] :=
  (h.marks c).imp (fun hnone => by rw [hnone]; rfl) fun hone => by rw [hone.1]; rfl

omit [Payload α] in
/-- The messages of one source among those of some kind. -/
theorem messagesOf_filter (i : Nat) (p : Message α → Bool) (es : List (Nat × Message α)) :
    messagesOf i (es.filter fun e => p e.2) = (messagesOf i es).filter p := by
  rw [messagesOf, messagesOf, List.filter_map, List.filter_filter, List.filter_filter]
  simp only [Function.comp_apply, Bool.and_comm]

/-- The texts of a category among those that are routed, each with its source. -/
def textsOf (c : Category) (rs : List (Nat × Category × α)) : List (Nat × Message α) :=
  (rs.filter fun e => e.2.1 = c).map fun e => (e.1, .item e.2.2)

/-- The texts of a category that were taken have been put there, apart from the one in hand. -/
theorem Attended.texts (h : Attended s₀ s acts deeds) (c : Category) :
    textsOf c (Dispatcher.routings deeds) ++ textsOf c s.dispatcher.inHand =
      (taken acts).filter fun e => isTextOf c e.2 := by
  rw [← h.takings, ← Dispatcher.filter_assigned, ← h.account.routings, textsOf, textsOf,
    List.filter_append, List.map_append]

omit [Payload α] in
theorem length_textsOf_inHand (c : Category) (d : Dispatcher α) :
    (textsOf c d.inHand).length ≤ 1 := by
  have hlength : d.inHand.length ≤ 1 := by
    unfold Dispatcher.inHand
    split
    · exact Nat.le_refl 1
    · exact Nat.zero_le 1
  rw [textsOf, List.length_map]
  exact Nat.le_trans (List.length_filter_le _ _) hlength

omit [Payload α] in
/-- What the dispatcher is about to put into the buffer of a category: the text in its hand, or
the end mark that is still missing there. -/
theorem giving?_eq_some {d : Dispatcher α} {m : Message α} (h : d.giving? c = some m) :
    c ∈ d.unclosed ∧
      ((∃ i, textsOf c d.inHand = [(i, m)]) ∨ m = .done ∧ textsOf c d.inHand = []) := by
  cases hphase : d.phase with
  | routing i e body =>
      simp only [Dispatcher.giving?, hphase, Option.ite_none_right_eq_some] at h
      obtain ⟨rfl, hm⟩ := h
      cases hm
      refine ⟨?_, .inl ⟨i, ?_⟩⟩
      · rw [Dispatcher.unclosed, hphase]
        exact Category.mem_all e
      · rw [Dispatcher.inHand, hphase]
        simp [textsOf]
  | closing e cs =>
      simp only [Dispatcher.giving?, hphase, Option.ite_none_right_eq_some] at h
      obtain ⟨rfl, hm⟩ := h
      cases hm
      refine ⟨?_, .inr ⟨rfl, ?_⟩⟩
      · rw [Dispatcher.unclosed, hphase]
        exact List.mem_cons_self
      · rw [Dispatcher.inHand, hphase]
        rfl
  | polling i => simp [Dispatcher.giving?, hphase] at h
  | checking i => simp [Dispatcher.giving?, hphase] at h
  | finished => simp [Dispatcher.giving?, hphase] at h

/-- What arrives in the buffer of a category: its texts in the order in which they were taken, of
which at most the last one is still missing, and then an end mark. -/
theorem Attended.arrived (h : Attended s₀ s acts deeds) (c : Category) :
    ∃ sent marks, messagesOf 0 (pushes (atCategory c acts)) = sent.map Prod.snd ++ marks ∧
      (marks = [] ∨ marks = [.done]) ∧ sent <+: (taken acts).filter (fun e => isTextOf c e.2) ∧
      ((taken acts).filter fun e => isTextOf c e.2).length ≤ sent.length + 1 := by
  have hsent := h.account.sentTo_eq c
  have hrouted : ((Dispatcher.routings deeds).filter fun e => e.2.1 = c).map
      (fun e => Message.item e.2.2) = (textsOf c (Dispatcher.routings deeds)).map Prod.snd := by
    rw [textsOf, List.map_map]
    rfl
  have htexts := h.texts c
  have hhand := length_textsOf_inHand c s.dispatcher
  have hlength := congrArg List.length htexts
  rw [List.length_append] at hlength
  have hprefix : textsOf c (Dispatcher.routings deeds) <+:
      (taken acts).filter (fun e => isTextOf c e.2) := ⟨_, htexts⟩
  rw [hrouted] at hsent
  -- the insertion of the dispatcher has changed the ring already, or has not
  obtain ⟨u, -, hsame | ⟨m, hgiving, -, ⟨-, hsame⟩ | ⟨-, hmore⟩⟩⟩ := h.categories c
  · exact ⟨_, _, hsame.2.trans hsent, h.marks_eq c, hprefix, by omega⟩
  · exact ⟨_, _, hsame.trans hsent, h.marks_eq c, hprefix, by omega⟩
  · obtain ⟨hunclosed, hgiven⟩ := giving?_eq_some hgiving
    have hnone : (Dispatcher.closings deeds).filter (fun e => e = c) = [] :=
      (h.marks c).resolve_right fun hclosed => hclosed.2 hunclosed
    rw [hnone, List.map_nil, List.append_nil] at hsent
    rw [hsent] at hmore
    rcases hgiven with ⟨i, htext⟩ | ⟨rfl, -⟩
    · rw [htext] at htexts
      refine ⟨_, [], ?_, .inl rfl, ⟨[], (List.append_nil _).trans htexts⟩, ?_⟩
      · rw [hmore, List.map_append, List.append_nil]
        rfl
      · rw [← htexts]
        exact Nat.le_succ _
    · exact ⟨_, _, hmore, .inr rfl, hprefix, by omega⟩

/-- An end mark goes to a category when all sources are done. -/
theorem Attended.all_checked (h : Attended s₀ s acts deeds)
    (hstep : Step s (.category c 0 (.does (.push .done))) s') :
    ∀ i < s₀.sources.length, .check i true ∈ acts := by
  have hclosing : ∃ cs, s.dispatcher.phase = .closing c cs := by
    cases hstep with
    | @put _ m next p' _ hgives hcall hreturn =>
        have hserved := h.categories c
        rw [hgives.giving?_eq, if_pos rfl] at hserved
        rcases hserved.call hcall with ⟨hreturned, -⟩ | ⟨-, hpush, -⟩
        · exact absurd hreturned hreturn
        · cases hgives with
          | route hphase => cases hpush _ rfl
          | close hphase => exact ⟨_, hphase⟩
  obtain ⟨cs, hphase⟩ := hclosing
  have hsteady := h.account.steady
  simp only [Dispatcher.Steady, hphase] at hsteady
  intro i hi
  rw [← h.length_statuses] at hi
  exact (h.known (List.getElem?_eq_getElem hi)).2.1 (hsteady.1 _ (List.getElem_mem hi))

/-! ### Runs -/

/-- How the junction stood before a step of a run. -/
theorem attended_before (hfresh : s₀.Fresh) {ms : List Move} {pre post : List (Act α)} {x : Act α}
    (htrace : Schedule.trace? act? s₀ ms = some (pre ++ x :: post, s)) :
    ∃ u v deeds, Attended s₀ u pre deeds ∧ Step u x v := by
  obtain ⟨ms₁, m, -, u, v, hpre, hact, -⟩ := Schedule.trace?_split htrace
  obtain ⟨deeds, h⟩ := attended_of_trace? hfresh hpre
  exact ⟨u, v, deeds, h, step_of_act? hact⟩

/-- What is left in a source when it is found empty, and that nothing is done there any more. -/
theorem done_of_check (hfresh : s₀.Fresh) {ms : List Move} {pre post : List (Act α)}
    (htrace : Schedule.trace? act? s₀ ms = some (pre ++ .check i true :: post, s)) :
    (∃ es left, arrivals (atSource i pre) = es ++ left ∧
      es.map Arrival.message = messagesOf i (taken pre) ∧ left.length ≤ 1 ∧
      ∀ e ∈ left, e.returned = false) ∧ ∀ x ∈ post, x.looksAt i = false := by
  obtain ⟨u, v, deeds, h, hstep⟩ := attended_before hfresh htrace
  refine ⟨h.checked hstep, fun x hx => ?_⟩
  obtain ⟨between, rest, rfl⟩ := List.append_of_mem hx
  have hlater : Schedule.trace? act? s₀ ms =
      some ((pre ++ .check i true :: between) ++ x :: rest, s) := by
    rw [htrace, List.append_assoc, List.cons_append]
  obtain ⟨u', v', deeds', h', hstep'⟩ := attended_before hfresh hlater
  rw [← Bool.not_eq_true]
  intro hlooks
  exact h'.not_checked hstep' hlooks (List.mem_append_right _ List.mem_cons_self)

/-- Whatever the other threads do at the buffers, at any time:
a source goes from active to draining when an end mark is taken from it and from draining to done
when it is found empty, and the dispatcher does nothing there after that; when a source is found
empty, its messages have been taken in the order in which they went in, apart from at most one,
the insertion of which has not returned; every message that was taken is counted once, or is the
text in hand; into the buffer of a category go its texts in the order in which they were taken,
of which at most the last one is still missing, and then an end mark; and this goes there when
all sources have been found empty. -/
theorem loses_nothing (hfresh : s₀.Fresh) {ms : List Move}
    (htrace : Schedule.trace? act? s₀ ms = some (acts, s)) :
    (∀ (i : Nat) (st : SourceStatus), s.dispatcher.sources[i]? = some st →
      (st = .active ↔ (i, .done) ∉ taken acts) ∧ (st = .done ↔ .check i true ∈ acts) ∧
      ∀ m x s', act? s m = some (x, s') → ∃ st', s'.dispatcher.sources[i]? = some st' ∧
        (st' = st ∨
          (st = .active ∧ st' = .draining ∧ x = .source i 0 (.does (.returnRemove .done))) ∨
          (st = .draining ∧ st' = .done ∧ x = .check i true))) ∧
    (∀ i pre post, acts = pre ++ .check i true :: post →
      (∃ es left, arrivals (atSource i pre) = es ++ left ∧
        es.map Arrival.message = messagesOf i (taken pre) ∧ left.length ≤ 1 ∧
        ∀ e ∈ left, e.returned = false) ∧ ∀ x ∈ post, x.looksAt i = false) ∧
    (taken acts).length = s.dispatcher.report.routed.sum + s.dispatcher.report.dropped +
      s.dispatcher.report.sentinelsReceived + s.dispatcher.inHand.length ∧
    (∀ c, ∃ sent marks, messagesOf 0 (pushes (atCategory c acts)) = sent.map Prod.snd ++ marks ∧
      (marks = [] ∨ marks = [.done]) ∧ sent <+: (taken acts).filter (fun e => isTextOf c e.2) ∧
      ((taken acts).filter fun e => isTextOf c e.2).length ≤ sent.length + 1 ∧
      ∀ i, messagesOf i sent <+: (messagesOf i (taken acts)).filter (isTextOf c)) ∧
    (∀ c pre post, acts = pre ++ .category c 0 (.does (.push .done)) :: post →
      ∀ i < s₀.sources.length, .check i true ∈ pre) := by
  obtain ⟨deeds, h⟩ := attended_of_trace? hfresh htrace
  refine ⟨fun i st hst => ?_, ?_, ?_, fun c => ?_, ?_⟩
  · obtain ⟨hactive, hdone⟩ := h.known hst
    exact ⟨hactive, hdone, fun m x s' hact => h.status hst (step_of_act? hact)⟩
  · rintro i pre post rfl
    exact done_of_check hfresh htrace
  · rw [← h.takings]
    exact h.account.length_takings
  · obtain ⟨sent, marks, harrived, hmarks, hsent, hlength⟩ := h.arrived c
    refine ⟨sent, marks, harrived, hmarks, hsent, hlength, fun i => ?_⟩
    rw [← messagesOf_filter]
    exact (hsent.filter _).map _
  · rintro c pre post rfl
    obtain ⟨u, v, deeds, h, hstep⟩ := attended_before hfresh htrace
    exact h.all_checked hstep

/-- A source into which two threads put an end mark and a text. -/
def lagging : Junction String where
  sources := [⟨"a", .start (.empty 2) [[], [.insert .done], [.insert (.item "NEWS 1")]], 0, none⟩]
  categories := .const ⟨"", .start (.empty 1) [[]], 0, none⟩
  dispatcher := .start 1

theorem fresh_lagging : lagging.Fresh := by
  refine
    { dispatcher := rfl
      events := rfl
      sources := fun p hp => ?_
      categories := fun c => ⟨[], ?_⟩ }
  · cases List.mem_singleton.1 hp
    exact ⟨[[.insert .done], [.insert (.item "NEWS 1")]], ⟨⟨2, .empty 2, rfl, rfl⟩, rfl, rfl⟩,
      by decide⟩
  · rw [lagging, ByCategory.get_const]
    exact ⟨⟨1, .empty 1, rfl, rfl⟩, rfl, rfl⟩

/-- A source is found empty while a text is in it: the number of its messages lags behind, and the
insertion of the text has not returned. -/
theorem loses_nothing_lagging :
    ∃ acts e s, Schedule.trace? act? lagging
        (List.replicate 4 (.source 0 0) ++ List.replicate 4 .dispatcher ++
          List.replicate 2 (.source 0 1) ++ [.dispatcher]) = some (acts ++ [.check 0 true], s) ∧
      taken acts = [(0, .done)] ∧ e ∈ arrivals (atSource 0 acts) ∧
      e.message = .item "NEWS 1" ∧ e.returned = false := by
  have hruns : (Schedule.trace? act? lagging
      (List.replicate 4 (.source 0 0) ++ List.replicate 4 .dispatcher ++
        List.replicate 2 (.source 0 1) ++ [.dispatcher])).any (fun r =>
          r.1 = r.1.dropLast ++ [.check 0 true] ∧ taken r.1.dropLast = [(0, .done)] ∧
            (arrivals (atSource 0 r.1.dropLast)).map Arrival.message = [.done, .item "NEWS 1"]) =
        true := by
    decide +kernel
  obtain ⟨⟨acts, s⟩, htrace, hdid⟩ := (Option.any_eq_true _ _).1 hruns
  obtain ⟨hlast, htaken, hmessages⟩ := of_decide_eq_true hdid
  obtain ⟨-, hchecks, -⟩ := loses_nothing fresh_lagging htrace
  obtain ⟨⟨es, left, harrivals, hes, -, hleft⟩, -⟩ := hchecks 0 _ _ hlast
  rw [htaken] at hes
  rw [harrivals, List.map_append, hes] at hmessages
  obtain ⟨e, rfl, he⟩ := List.map_eq_singleton_iff.1 (List.append_cancel_left hmessages)
  refine ⟨acts.dropLast, e, s, by rw [← hlast]; exact htrace, htaken, ?_, he,
    hleft e (List.mem_singleton_self e)⟩
  rw [harrivals]
  exact List.mem_append_right _ (List.mem_singleton_self e)

end Newsroom.Junction
