import Newsroom.Proofs.Bench.Moves
import Newsroom.Proofs.Floor.Deeds

/-!
# The dispatcher merges its sources

A dispatcher on the bench, with sources that were filled before and readers that empty the
queues of the categories meanwhile, takes one message of every source that has any left, in
the order of the sources, round after round.

## Main Definitions

* `Bench.dispatching`, `Bench.dispatchMoves` — the dispatcher on the bench, and what can happen
* `Bench.received` — what has come to a category, whether it was collected or not
* `Bench.Merging` — how the bench stands, by what the dispatcher has done
* `Bench.toil` — a bound of the steps that are left

## Main Statements

* `Merging.dispatch`, `Merging.collect` — every step keeps the bench in order
* `Merging.toil_dispatch` — a step of the dispatcher uses up some toil
* `Merging.progress` — unless the dispatcher has finished something can happen
* `merges_in_turn` — what comes of sources that all have an end mark, and of others

## Design Notes

The messages that are taken one after the other are the lists of the sources read column by
column.  This is `Rounds.inTurn`; the dispatcher is on such rounds whatever the readers do.
-/

namespace Newsroom.Bench

open Dispatcher (Deed Account Turning takings sentTo isTextOf isStray warnings)
open Rounds (inTurn)

variable {ρ α : Type}

/-- A dispatcher on the bench before its first step, with its sources and its outputs. -/
def dispatching (sources : List (Queue (Message α))) (categories : ByCategory (Queue (Message α))) :
    Bench ρ α where
  floor :=
    { (bare : Floor ρ α) with sources, categories, dispatcher := Dispatcher.start sources.length }

/-- The dispatcher takes a step, or the reader of a category takes a message. -/
def dispatchMoves : List Move :=
  .act .dispatcher :: Category.all.map fun c => .collect (.category c)

/-- All that has come to a category, in order. -/
def received (b : Bench ρ α) (c : Category) : List (Message α) :=
  b.collectedFrom (.category c) ++ (b.floor.categories.get c).items

/-- The name of a source. -/
def sourceName (sources : List (Queue (Message α))) (i : Nat) : String :=
  (sources[i]?.map Queue.name).getD ""

/-- How many messages wait for the readers. -/
def waiting (b : Bench ρ α) : Nat :=
  exactSum (b.floor.categories.map fun q => q.items.length).toList

/-- A bound of the steps that are left while no look of the dispatcher is in vain. -/
def toil (b : Bench ρ α) : Nat :=
  4 * exactSum (b.floor.items.map List.length) + b.waiting + b.floor.dispatcher.effort

/-- How the bench stands after some deeds of the dispatcher. -/
structure Merging [Payload α] (sources : List (Queue (Message α))) (b : Bench ρ α)
    (deeds : List (Deed α)) : Prop where
  account : Account (sourceName sources) deeds b.floor.dispatcher b.floor.events
  turning : Turning (sources.map Queue.items) b.floor.dispatcher b.floor.items (takings deeds)
  names : b.floor.sources.map Queue.name = sources.map Queue.name
  room : ∀ c, 0 < (b.floor.categories.get c).capacity
  received : ∀ c, b.received c = sentTo c deeds

/-- What comes of sources that all have an end mark. -/
structure Merged [Payload α] (sources : List (Queue (Message α))) (b : Bench ρ α) : Prop where
  emptied : ∀ q ∈ b.floor.sources, q.items = []
  received : ∀ c, b.received c =
    ((inTurn (sources.map Queue.items)).map Prod.snd).filter (isTextOf c) ++ [.done]
  report : b.floor.dispatcher.report =
    { routed := ByCategory.ofFn fun c => (sources.map Queue.items).flatten.countP (isTextOf c)
      dropped := (sources.map Queue.items).flatten.countP isStray
      sentinelsReceived := (sources.map Queue.items).flatten.countP Message.isDone
      sentinelsSent := 3 }
  events : b.floor.events =
    warnings (sourceName sources) (inTurn (sources.map Queue.items)) ++
      [.dispatcherFinished b.floor.dispatcher.report.routed.sum b.floor.dispatcher.report.dropped
        sources.length]

/-! ### Steps -/

variable [CategorySource ρ] [Payload α] {sink : Sink} {sources : List (Queue (Message α))}
  {categories : ByCategory (Queue (Message α))} {b b' : Bench ρ α} {deeds : List (Deed α)}
  {c : Category}

omit [CategorySource ρ] in
theorem Merging.start (hroom : ∀ c, 0 < (categories.get c).capacity)
    (hempty : ∀ c, (categories.get c).items = []) :
    Merging sources (dispatching sources categories : Bench ρ α) [] := by
  refine
    { account := Account.start _ _
      turning := ?_
      names := rfl
      room := hroom
      received := fun c => hempty c }
  have hstart := Turning.start (sources.map Queue.items)
  rw [List.length_map] at hstart
  exact hstart

omit [CategorySource ρ] in
theorem Merging.name_eq (h : Merging sources b deeds) {i : Nat} {q : Queue (Message α)}
    (hq : b.floor.sources[i]? = some q) : q.name = sourceName sources i := by
  have hname : (sources.map Queue.name)[i]? = some q.name := by
    rw [← h.names, List.getElem?_map, hq, Option.map_some]
  rw [List.getElem?_map] at hname
  rw [sourceName, hname, Option.getD_some]

omit [CategorySource ρ] [Payload α] in
/-- What comes to the categories with a message for one of them, or with none. -/
theorem received_puts {floor : Floor ρ α} {putting : Option (Category × Message α)}
    (hputs : Floor.Puts b.floor.categories floor.categories putting)
    (hroom : ∀ c, 0 < (b.floor.categories.get c).capacity) (c : Category) :
    ({ b with floor } : Bench ρ α).received c =
        b.received c ++ (putting.toList.filter fun e => e.1 = c).map Prod.snd ∧
      0 < (floor.categories.get c).capacity := by
  cases putting with
  | none =>
      have hsame : floor.categories = b.floor.categories := hputs
      refine ⟨?_, by rw [hsame]; exact hroom c⟩
      rw [received, received, hsame]
      exact (List.append_nil _).symm
  | some e =>
      obtain ⟨d, m⟩ := e
      obtain ⟨r, hinsert, hset⟩ := hputs
      obtain ⟨hitems, hcapacity, -, -⟩ := Queue.items_insert? hinsert
      by_cases hcd : d = c
      · subst hcd
        refine ⟨?_, by rw [hset, ByCategory.get_set_self, hcapacity]; exact hroom d⟩
        simp [received, collectedFrom, hset, hitems]
      · have hother : floor.categories.get c = b.floor.categories.get c := by
          rw [hset, ByCategory.get_set_of_ne _ (Ne.symm hcd)]
        refine ⟨?_, by rw [hother]; exact hroom c⟩
        simp [received, collectedFrom, hother, hcd]

/-- The deed of a step of the dispatcher on the bench. -/
theorem Merging.deed (h : Merging sources b deeds)
    (hstep : step? sink b (.act .dispatcher) = some b') :
    ∃ deed es, Dispatcher.Does (sourceName sources) b.floor.dispatcher deed b'.floor.dispatcher es ∧
      b'.floor.events = b.floor.events ++ es ∧ Dispatcher.Finds b.floor.items b'.floor.items deed ∧
      b'.floor.sources.map Queue.name = b.floor.sources.map Queue.name ∧
      Floor.Puts b.floor.categories b'.floor.categories deed.putting? ∧
      b' = { b with floor := b'.floor } := by
  obtain ⟨floor, hfloor, rfl⟩ := act_eq_some_iff.1 hstep
  obtain ⟨deed, es, hdoes, hevents, hfinds, hnames, hputs⟩ :=
    hfloor.does fun i q hq => h.name_eq hq
  exact ⟨deed, es, hdoes, hevents, hfinds, hnames, hputs, rfl⟩

/-- A step of the dispatcher. -/
theorem Merging.dispatch (h : Merging sources b deeds)
    (hstep : step? sink b (.act .dispatcher) = some b') :
    ∃ deed, Merging sources b' (deeds ++ [deed]) := by
  obtain ⟨deed, es, hdoes, hevents, hfinds, hnames, hputs, hfloor⟩ := h.deed hstep
  refine ⟨deed,
    { account := ?_
      turning := ?_
      names := hnames.trans h.names
      room := fun c => (received_puts hputs h.room c).2
      received := fun c => ?_ }⟩
  · rw [hevents]
    exact h.account.does hdoes
  · rw [Dispatcher.takings_concat]
    exact h.turning.does h.account.steady hdoes hfinds
  · rw [hfloor, (received_puts hputs h.room c).1, h.received c, Dispatcher.sentTo_concat]

/-- What a reader collects was the first that waited. -/
theorem collect_cases
    (hstep : step? sink b (.collect (.category c)) = some b') :
    ∃ m r, (b.floor.categories.get c).remove? = some (m, r) ∧
      b' = ⟨{ b.floor with categories := b.floor.categories.set c r },
        b.collected ++ [(.category c, m)]⟩ := by
  obtain ⟨q, m, r, hq, hr, rfl⟩ := collect_eq_some_iff.1 hstep
  cases hq
  exact ⟨m, r, hr, rfl⟩

/-- A reader changes nothing of what has come to the categories. -/
theorem Merging.collect (h : Merging sources b deeds)
    (hstep : step? sink b (.collect (.category c)) = some b') : Merging sources b' deeds := by
  obtain ⟨m, r, hremove, rfl⟩ := collect_cases hstep
  obtain ⟨hitems, hcapacity, -⟩ := Queue.items_remove? hremove
  refine
    { account := h.account
      turning := h.turning
      names := h.names
      room := fun d => ?_
      received := fun d => ?_ }
  · by_cases hdc : d = c
    · subst hdc
      show 0 < ((b.floor.categories.set d r).get d).capacity
      rw [ByCategory.get_set_self, hcapacity]
      exact h.room d
    · show 0 < ((b.floor.categories.set c r).get d).capacity
      rw [ByCategory.get_set_of_ne _ hdc]
      exact h.room d
  · rw [← h.received d]
    by_cases hdc : d = c
    · subst hdc
      simp [Bench.received, collectedFrom, hitems]
    · simp [Bench.received, collectedFrom, ByCategory.get_set_of_ne _ hdc, Ne.symm hdc]

/-! ### Toil -/

omit [CategorySource ρ] [Payload α] in
theorem waiting_puts {floor : Floor ρ α} {putting : Option (Category × Message α)}
    (hputs : Floor.Puts b.floor.categories floor.categories putting) :
    ({ b with floor } : Bench ρ α).waiting = b.waiting + putting.toList.length := by
  cases putting with
  | none =>
      have hsame : floor.categories = b.floor.categories := hputs
      rw [waiting, waiting, hsame]
      rfl
  | some e =>
      obtain ⟨d, m⟩ := e
      obtain ⟨r, hinsert, hset⟩ := hputs
      have hsum := exactSum_toList_set (fun q : Queue (Message α) => q.items.length)
        b.floor.categories d r
      rw [(Queue.items_insert? hinsert).1, List.length_append] at hsum
      rw [waiting, waiting, hset]
      show _ = _ + 1
      simp only [List.length_singleton] at hsum
      omega

omit [CategorySource ρ] [Payload α] in
theorem items_finds {items items' : List (List (Message α))} {deed : Deed α}
    (h : Dispatcher.Finds items items' deed) :
    exactSum (items'.map List.length) + deed.taking?.toList.length =
      exactSum (items.map List.length) := by
  cases deed with
  | took i m =>
      obtain ⟨rest, hi, rfl⟩ := h
      have hsum := exactSum_map_set List.length hi rest
      rw [List.length_cons] at hsum
      show _ + 1 = _
      omega
  | missed i => rw [h.2]; rfl
  | routed i d body => rw [show items' = items from h]; rfl
  | checked i empty => rw [h.2]; rfl
  | closed d => rw [show items' = items from h]; rfl

/-- While every source had an end mark a step of the dispatcher uses up some toil. -/
theorem Merging.toil_dispatch (h : Merging sources b deeds)
    (hmarks : ∀ q ∈ sources, .done ∈ q.items)
    (hstep : step? sink b (.act .dispatcher) = some b') : b'.toil < b.toil := by
  obtain ⟨deed, es, hdoes, -, hfinds, -, hputs, hfloor⟩ := h.deed hstep
  have hmiss : ∀ i, deed ≠ .missed i := by
    rintro i rfl
    refine h.turning.not_missed h.account (fun l hl => ?_) hdoes.phase_of_missed hfinds.1
    obtain ⟨q, hq, rfl⟩ := List.mem_map.1 hl
    exact hmarks q hq
  have heffort := hdoes.effort_lt hmiss
  have hitems := items_finds hfinds
  have hwaiting := waiting_puts hputs
  rw [← hfloor] at hwaiting
  rw [toil, toil]
  omega

theorem toil_collect (hstep : step? sink b (.collect (.category c)) = some b') :
    b'.toil < b.toil := by
  obtain ⟨m, r, hremove, rfl⟩ := collect_cases hstep
  have hsum := exactSum_toList_set (fun q : Queue (Message α) => q.items.length)
    b.floor.categories c r
  rw [(Queue.items_remove? hremove).1, List.length_cons] at hsum
  show 4 * exactSum (b.floor.items.map List.length) +
      exactSum ((b.floor.categories.set c r).map fun q => q.items.length).toList +
      b.floor.dispatcher.effort < b.toil
  rw [toil, waiting]
  omega

omit [CategorySource ρ] [Payload α] in
theorem toil_dispatching (hempty : ∀ c, (categories.get c).items = []) :
    (dispatching sources categories : Bench ρ α).toil =
      4 * (sources.map Queue.items).flatten.length + 6 := by
  have hwaiting : (dispatching sources categories : Bench ρ α).waiting = 0 := by
    show exactSum (categories.map fun q => q.items.length).toList = 0
    simp [exactSum_toList, hempty]
  have hlength : ∀ ls : List (List (Message α)),
      exactSum (ls.map List.length) = ls.flatten.length := by
    intro ls
    induction ls with
    | nil => rfl
    | cons l ls ih => rw [List.map_cons, exactSum_cons, ih, List.flatten_cons, List.length_append]
  have heffort : (Dispatcher.start sources.length : Dispatcher α).effort = 6 :=
    Dispatcher.effort_of_scan (Dispatcher.phase_start _)
  rw [toil, hwaiting, ← hlength]
  show 4 * exactSum ((sources.map Queue.items).map List.length) + 0 + _ = _
  rw [show (dispatching sources categories : Bench ρ α).floor.dispatcher.effort = 6 from heffort]

/-! ### Runs -/

/-- Unless the dispatcher has finished it can take a step, or else a reader can. -/
theorem Merging.progress (h : Merging sources b deeds)
    (hphase : b.floor.dispatcher.phase ≠ .finished) :
    ∃ m ∈ dispatchMoves, ∃ b', step? sink b m = some b' := by
  have hdispatch : b.floor.stepDispatcher?.isSome →
      ∃ m ∈ dispatchMoves, ∃ b', step? sink b m = some b' := by
    intro hsome
    obtain ⟨floor, hfloor⟩ := Option.isSome_iff_exists.1 hsome
    exact ⟨.act .dispatcher, List.mem_cons_self, _, Option.map_eq_some_iff.2 ⟨floor, hfloor, rfl⟩⟩
  have hcollect : ∀ c b', step? sink b (.collect (.category c)) = some b' →
      ∃ m ∈ dispatchMoves, ∃ b', step? sink b m = some b' := by
    intro c b' hb'
    exact ⟨.collect (.category c),
      List.mem_cons_of_mem _ (List.mem_map_of_mem (Category.mem_all c)), b', hb'⟩
  have hput : ∀ c m, (∀ floor, b.floor.insert? (.category c) m = some floor →
      b.floor.stepDispatcher?.isSome) → ∃ m ∈ dispatchMoves, ∃ b', step? sink b m = some b' := by
    intro c m hgo
    have hqueue : b.floor.queue? (.category c) = some (b.floor.categories.get c) := rfl
    rcases insert_or_collect hqueue (h.room c) m with ⟨r, hr⟩ | ⟨b', hb'⟩
    · exact hdispatch (hgo _ (Floor.insert?_eq_some_iff.2 ⟨_, r, hqueue, hr, rfl⟩))
    · exact hcollect c b' hb'
  have hsource : ∀ (i : Nat) (s : SourceStatus), b.floor.dispatcher.sources[i]? = some s →
      ∃ q, b.floor.sources[i]? = some q := by
    intro i s hs
    have hlt := h.turning.lt_of_source hs
    have hlength := congrArg List.length h.names
    rw [List.length_map] at hlt hlength
    rw [List.length_map] at hlength
    exact ⟨_, List.getElem?_eq_getElem (hlength ▸ hlt)⟩
  cases hp : b.floor.dispatcher.phase with
  | polling i =>
      obtain ⟨s, hs, -⟩ := h.account.steady.not_done_of_polling hp
      obtain ⟨q, hq⟩ := hsource i s hs
      exact hdispatch (by simp [Floor.stepDispatcher?, hp, Floor.poll?, hq])
  | routing i c body =>
      exact hput c (.item body) fun floor hfloor => by simp [Floor.stepDispatcher?, hp, hfloor]
  | checking i =>
      obtain ⟨q, hq⟩ := hsource i _ (h.account.steady.draining_of_checking hp)
      exact hdispatch (by simp [Floor.stepDispatcher?, hp, hq])
  | closing c cs =>
      exact hput c .done fun floor hfloor => by simp [Floor.stepDispatcher?, hp, hfloor]
  | finished => exact absurd hp hphase

/-- Whatever happens, the bench is in order, and toil is used up while every source had an end
mark. -/
theorem Merging.run {ms : List Move} (h : Merging sources b deeds)
    (hmoves : ∀ m ∈ ms, m ∈ dispatchMoves)
    (hrun : Schedule.run? (step? sink) b ms = some b') :
    (∃ deeds', Merging sources b' deeds') ∧
      ((∀ q ∈ sources, .done ∈ q.items) → ms.length + b'.toil ≤ b.toil) := by
  induction ms generalizing b deeds with
  | nil =>
      cases hrun
      exact ⟨⟨deeds, h⟩, fun _ => Nat.le_of_eq (Nat.zero_add _)⟩
  | cons m ms ih =>
      obtain ⟨b₁, hstep, hrest⟩ := Option.bind_eq_some_iff.1 hrun
      have hone : (∃ deeds', Merging sources b₁ deeds') ∧
          ((∀ q ∈ sources, .done ∈ q.items) → b₁.toil < b.toil) := by
        rcases List.mem_cons.1 (hmoves m List.mem_cons_self) with rfl | hm
        · obtain ⟨deed, hnext⟩ := h.dispatch hstep
          exact ⟨⟨_, hnext⟩, fun hmarks => h.toil_dispatch hmarks hstep⟩
        · obtain ⟨c, -, rfl⟩ := List.mem_map.1 hm
          exact ⟨⟨_, h.collect hstep⟩, fun _ => toil_collect hstep⟩
      obtain ⟨⟨deeds₁, h₁⟩, hless⟩ := hone
      obtain ⟨hfinal, hbound⟩ := ih h₁ (fun m hm => hmoves m (List.mem_cons_of_mem _ hm)) hrest
      refine ⟨hfinal, fun hmarks => ?_⟩
      have hstepped := hless hmarks
      have hrested := hbound hmarks
      rw [List.length_cons]
      omega

/-! ### Outcomes -/

omit [CategorySource ρ] in
/-- What comes of the sources, once the dispatcher has finished. -/
theorem Merging.merged (h : Merging sources b deeds)
    (hphase : b.floor.dispatcher.phase = .finished) : Merged sources b := by
  have hall : ∀ s ∈ b.floor.dispatcher.sources, s = .done := by
    simpa only [Dispatcher.Steady, hphase] using h.account.steady
  obtain ⟨hempty, hturn⟩ := h.turning.complete hall
  have hroutings := h.account.routings
  have hclosings := h.account.closings
  rw [Dispatcher.inHand, hphase, List.append_nil, hturn] at hroutings
  rw [Dispatcher.unclosed, hphase, List.append_nil] at hclosings
  have hperm := Rounds.inTurn_perm (sources.map Queue.items)
  have hcount : ∀ p : Message α → Bool,
      (inTurn (sources.map Queue.items)).countP (fun e => p e.2) =
        (sources.map Queue.items).flatten.countP p := by
    intro p
    rw [← hperm.countP_eq p, List.countP_map]
    rfl
  have hlength : b.floor.dispatcher.sources.length = sources.length := by
    rw [h.turning.length, List.length_map]
  refine
    { emptied := fun q hq => hempty _ (List.mem_map_of_mem hq)
      received := fun c => ?_
      report := ?_
      events := ?_ }
  · rw [h.received c, h.account.sentTo_eq, hroutings, Dispatcher.map_filter_assigned, hclosings]
    cases c <;> rfl
  · rw [h.account.report, Dispatcher.counts, hturn, hroutings, hclosings, hcount, hcount]
    congr 1
    refine ByCategory.ext_get fun c => ?_
    rw [Tally.get_ofList, ByCategory.get_ofFn, List.countP_map, ← hcount (isTextOf c)]
    have hfilter := congrArg List.length
      (Dispatcher.filter_assigned (inTurn (sources.map Queue.items)) c)
    rw [List.length_map, ← List.countP_eq_length_filter, ← List.countP_eq_length_filter] at hfilter
    exact hfilter
  · rw [h.account.events, hturn, Dispatcher.ending, hphase, hlength]

omit [CategorySource ρ] in
/-- A source without an end mark keeps the dispatcher from finishing, and the categories from
being closed. -/
theorem Merging.unfinished (h : Merging sources b deeds) {q : Queue (Message α)} (hq : q ∈ sources)
    (hnone : .done ∉ q.items) :
    b.floor.dispatcher.phase ≠ .finished ∧ ∀ c, .done ∉ b.received c := by
  obtain ⟨i, hi⟩ := List.mem_iff_getElem?.1 hq
  have hactive := h.turning.active h.account (l := q.items)
    (by rw [List.getElem?_map, hi, Option.map_some]) hnone
  have hmem : SourceStatus.active ∈ b.floor.dispatcher.sources := List.mem_of_getElem? hactive
  refine ⟨fun hphase => ?_, fun c hdone => ?_⟩
  · have hall : ∀ s ∈ b.floor.dispatcher.sources, s = .done := by
      simpa only [Dispatcher.Steady, hphase] using h.account.steady
    cases hall _ hmem
  · rw [h.received c] at hdone
    obtain ⟨⟨d, m⟩, hput, rfl⟩ := List.mem_map.1 hdone
    obtain ⟨deed, hdeed, hputting⟩ := List.mem_filterMap.1 (List.mem_filter.1 hput).1
    cases deed with
    | closed e => cases h.account.all_done hdeed _ hmem
    | took j m => cases hputting
    | missed j => cases hputting
    | routed j e body => cases hputting
    | checked j empty => cases hputting

/-- A dispatcher with sources that nobody fills any more, while the queues of the categories are
emptied in any way.  Until it has finished something can happen.  If every source has an end
mark, the number of steps has a bound, and in the end the sources are empty, and every category
has got its texts by their place in their source and then by the source, and an end mark after
them.  If some source has none, the dispatcher does not finish and no category gets an end
mark. -/
theorem merges_in_turn (sink : Sink) (hroom : ∀ c, 0 < (categories.get c).capacity)
    (hempty : ∀ c, (categories.get c).items = []) :
    ∀ (ms : List Move) (b : Bench ρ α), (∀ m ∈ ms, m ∈ dispatchMoves) →
      Schedule.run? (step? sink) (dispatching sources categories) ms = some b →
        (b.floor.dispatcher.phase ≠ .finished →
          ∃ m ∈ dispatchMoves, ∃ b', step? sink b m = some b') ∧
        ((∀ q ∈ sources, .done ∈ q.items) →
          ms.length ≤ 4 * (sources.map Queue.items).flatten.length + 6 ∧
            (b.floor.dispatcher.phase = .finished → Merged sources b)) ∧
        ((∃ q ∈ sources, .done ∉ q.items) →
          b.floor.dispatcher.phase ≠ .finished ∧ ∀ c, .done ∉ b.received c) := by
  intro ms b hmoves hrun
  have hstart : Merging sources (dispatching sources categories : Bench ρ α) [] :=
    Merging.start hroom hempty
  obtain ⟨⟨deeds, h⟩, hbound⟩ := hstart.run hmoves hrun
  refine ⟨h.progress, fun hmarks => ⟨?_, h.merged⟩, ?_⟩
  · have hless := hbound hmarks
    rw [toil_dispatching hempty] at hless
    omega
  · rintro ⟨q, hq, hnone⟩
    exact h.unfinished hq hnone

/-- Two sources are merged.  The text after the end mark of the first is taken in the third round,
when the second source is done. -/
theorem merges_in_turn_two :
    ∃ (ms : List Move) (b : Bench Generator String),
      Schedule.run? (step? fun _ => .accept)
        (dispatching
          [.filled "a" [.item "SPORTS 1", .done, .item "NEWS 2"],
            .filled "b" [.item "NEWS 1", .done]]
          (.const (.filled "" []))) ms = some b ∧
        b.floor.dispatcher.phase = .finished ∧
        b.received .news = [.item "NEWS 1", .item "NEWS 2", .done] := by
  let sources : List (Queue (Message String)) :=
    [.filled "a" [.item "SPORTS 1", .done, .item "NEWS 2"], .filled "b" [.item "NEWS 1", .done]]
  let turn : Move := .act .dispatcher
  let ms : List Move :=
    List.replicate 9 turn ++ [.collect (.category .news), turn, turn, .collect (.category .sports),
      turn, .collect (.category .news), turn, turn]
  have hfinishes : (Schedule.run? (step? fun _ => .accept)
      (dispatching sources (.const (.filled "" [])) : Bench Generator String) ms).map
        (fun b => b.floor.dispatcher.phase) = some .finished := by decide +kernel
  obtain ⟨b, hrun, hphase⟩ := Option.map_eq_some_iff.1 hfinishes
  have hmerge := merges_in_turn (fun _ => .accept) (fun c => by cases c <;> decide)
    (fun c => by cases c <;> rfl) ms b (by decide) hrun
  refine ⟨ms, b, hrun, hphase, ?_⟩
  rw [((hmerge.2.1 (by decide)).2 hphase).received]
  decide +kernel

end Newsroom.Bench
