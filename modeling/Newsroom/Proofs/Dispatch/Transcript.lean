import Newsroom.Proofs.Dispatcher
import Newsroom.Proofs.Producer

/-!
# What a dispatcher has done

All that a dispatcher knows and counts is told by what it has taken, put and seen, whatever it
was given.

## Main Definitions

* `Dispatcher.Deed` — what a dispatcher sees or does in a step
* `Dispatcher.Does` — a step of a dispatcher, with its deed and what it reports
* `takings`, `routings`, `closings` — what was taken, where texts were put, and where end marks
* `assign?`, `isStray`, `warnings` — what has to become of what was taken, and what is reported
* `Dispatcher.Account` — a dispatcher that has come to stand where its deeds have led

## Main Statements

* `Account.start`, `Account.does` — a dispatcher accounts for its deeds, from its first step on
* `length_takings` — every message that was taken is counted once

## Design Notes

Nothing is said of queues here.  Whoever runs a dispatcher shows that its steps are those of
`Does`, and relates the takings and routings to the queues.
-/

namespace Newsroom.Dispatcher

variable {α : Type}

/-- What a dispatcher sees or does in a step. -/
inductive Deed (α : Type) where
  /-- It takes a message from a source. -/
  | took (i : Nat) (m : Message α)
  /-- It finds nothing to take in a source. -/
  | missed (i : Nat)
  /-- It puts a text from a source into the queue of a category. -/
  | routed (i : Nat) (c : Category) (body : α)
  /-- It sees whether a source is empty. -/
  | checked (i : Nat) (empty : Bool)
  /-- It puts an end mark into the queue of a category. -/
  | closed (c : Category)
  deriving DecidableEq, Repr

/-- A step of a dispatcher whose sources have names. -/
inductive Does [Payload α] (names : Nat → String) (d : Dispatcher α) :
    Deed α → Dispatcher α → List Event → Prop
  | take {i : Nat} (m : Message α) (hphase : d.phase = .polling i) :
    Does names d (.took i m) (d.polled i (names i) (some m)).1 (d.polled i (names i) (some m)).2
  | miss {i : Nat} (hphase : d.phase = .polling i) : Does names d (.missed i) (d.afterPoll i) []
  | route {i : Nat} {c : Category} {body : α} (hphase : d.phase = .routing i c body) :
    Does names d (.routed i c body) (d.routed i c) []
  | check {i : Nat} (empty : Bool) (hphase : d.phase = .checking i) :
    Does names d (.checked i empty) (d.checked i empty) []
  | close {c : Category} {cs : List Category} (hphase : d.phase = .closing c cs) :
    Does names d (.closed c) (d.closed cs).1 (d.closed cs).2

/-! ### Takings, routings and closings -/

/-- What a deed takes, and from which source. -/
@[simp] def Deed.taking? : Deed α → Option (Nat × Message α)
  | took i m => some (i, m)
  | _ => none

/-- The text that a deed puts into the queue of a category, and the source that it is from. -/
@[simp] def Deed.routing? : Deed α → Option (Nat × Category × α)
  | routed i c body => some (i, c, body)
  | _ => none

/-- The category that a deed gives its end mark. -/
@[simp] def Deed.closing? : Deed α → Option Category
  | closed c => some c
  | _ => none

/-- The message that a deed puts into the queue of a category. -/
@[simp] def Deed.putting? : Deed α → Option (Category × Message α)
  | routed _ c body => some (c, .item body)
  | closed c => some (c, .done)
  | _ => none

/-- What was taken, in turn, each with its source. -/
def takings (deeds : List (Deed α)) : List (Nat × Message α) := deeds.filterMap Deed.taking?

/-- The texts that were put into the queues of the categories, in turn. -/
def routings (deeds : List (Deed α)) : List (Nat × Category × α) := deeds.filterMap Deed.routing?

/-- The categories that were given their end marks, in turn. -/
def closings (deeds : List (Deed α)) : List Category := deeds.filterMap Deed.closing?

/-- What was put into the queues of the categories, in turn. -/
def puttings (deeds : List (Deed α)) : List (Category × Message α) :=
  deeds.filterMap Deed.putting?

/-- What was put into the queue of a category, in turn. -/
def sentTo (c : Category) (deeds : List (Deed α)) : List (Message α) :=
  ((puttings deeds).filter fun e => e.1 = c).map Prod.snd

/-- The text in the hands of a dispatcher, with its source and its category. -/
def inHand (d : Dispatcher α) : List (Nat × Category × α) :=
  match d.phase with
  | .routing i c body => [(i, c, body)]
  | _ => []

/-- The categories that a dispatcher has still to give their end marks. -/
def unclosed (d : Dispatcher α) : List Category :=
  match d.phase with
  | .closing c cs => c :: cs
  | .finished => []
  | _ => Category.all

section

variable [Payload α]

/-- What is taken belongs to a category if it is a text of one. -/
def assign? : Nat × Message α → Option (Nat × Category × α)
  | (i, .item body) => (Category.classify (Payload.text body)).map fun c => (i, c, body)
  | (_, .done) => none

/-- Whether a message is a text of a category. -/
def isTextOf (c : Category) : Message α → Bool
  | .item body => Category.classify (Payload.text body) = some c
  | .done => false

/-- Whether a message is a text of no category. -/
def isStray : Message α → Bool
  | .item body => (Category.classify (Payload.text body)).isNone
  | .done => false

/-- The report on a message that is taken from a source, after other messages. -/
def warning (names : Nat → String) (before : List (Nat × Message α)) :
    Nat × Message α → List Event
  | (_, .item body) =>
      if isStray (.item body) then [.dropped (Payload.text body)] else []
  | (i, .done) =>
      if before.any fun e => e.1 = i && e.2.isDone then [.duplicateSentinel (names i)] else []

/-- The reports on messages that are taken in turn, after other messages. -/
def warningsFrom (names : Nat → String) (before : List (Nat × Message α)) :
    List (Nat × Message α) → List Event
  | [] => []
  | e :: es => warning names before e ++ warningsFrom names (before ++ [e]) es

/-- The reports on messages that are taken in turn: on each text of no category, and on each end
mark that is not the first of its source. -/
def warnings (names : Nat → String) (es : List (Nat × Message α)) : List Event :=
  warningsFrom names [] es

end

/-- The last report of a dispatcher that has finished. -/
def ending (d : Dispatcher α) : List Event :=
  match d.phase with
  | .finished => [.dispatcherFinished d.report.routed.sum d.report.dropped d.sources.length]
  | _ => []

/-- What is known of the sources is told by the deeds. -/
structure Known (deeds : List (Deed α)) (sources : List SourceStatus) : Prop where
  /-- A source is active until an end mark is taken from it. -/
  active : ∀ (i : Nat) (s : SourceStatus), sources[i]? = some s →
    (s = .active ↔ .took i .done ∉ deeds)
  /-- A source is done once it is seen to be empty. -/
  done : ∀ (i : Nat) (s : SourceStatus), sources[i]? = some s →
    (s = .done ↔ .checked i true ∈ deeds)

/-- The counts that go with some deeds. -/
def counts [Payload α] (deeds : List (Deed α)) : Report where
  routed := Tally.ofList ((routings deeds).map fun e => e.2.1)
  dropped := (takings deeds).countP fun e => isStray e.2
  sentinelsReceived := (takings deeds).countP fun e => e.2.isDone
  sentinelsSent := (closings deeds).length

/-- What a dispatcher knows, counts and has reported is told by its deeds. -/
structure Account [Payload α] (names : Nat → String) (deeds : List (Deed α)) (d : Dispatcher α)
    (events : List Event) : Prop where
  steady : d.Steady
  known : Known deeds d.sources
  report : d.report = counts deeds
  /-- Every text of a category is put into its queue, in the order of the takings. -/
  routings : routings deeds ++ d.inHand = (takings deeds).filterMap assign?
  closings : closings deeds ++ d.unclosed = Category.all
  /-- No text comes after an end mark. -/
  puttings : puttings deeds =
    (Dispatcher.routings deeds).map (fun e => (e.2.1, .item e.2.2)) ++
      (Dispatcher.closings deeds).map fun c => (c, .done)
  events : events = warnings names (takings deeds) ++ d.ending

/-- A dispatcher that stands before its sources with empty hands. -/
structure Idle (d : Dispatcher α) : Prop where
  inHand : d.inHand = []
  unclosed : d.unclosed = Category.all
  ending : d.ending = []

/-! ### The parts of a transcript -/

@[simp] theorem takings_concat (deeds : List (Deed α)) (deed : Deed α) :
    takings (deeds ++ [deed]) = takings deeds ++ deed.taking?.toList := by
  cases deed <;> simp [takings, Deed.taking?]

@[simp] theorem routings_concat (deeds : List (Deed α)) (deed : Deed α) :
    routings (deeds ++ [deed]) = routings deeds ++ deed.routing?.toList := by
  cases deed <;> simp [Dispatcher.routings, Deed.routing?]

@[simp] theorem closings_concat (deeds : List (Deed α)) (deed : Deed α) :
    closings (deeds ++ [deed]) = closings deeds ++ deed.closing?.toList := by
  cases deed <;> simp [Dispatcher.closings, Deed.closing?]

@[simp] theorem puttings_concat (deeds : List (Deed α)) (deed : Deed α) :
    puttings (deeds ++ [deed]) = puttings deeds ++ deed.putting?.toList := by
  cases deed <;> simp [Dispatcher.puttings]

theorem sentTo_concat (c : Category) (deeds : List (Deed α)) (deed : Deed α) :
    sentTo c (deeds ++ [deed]) =
      sentTo c deeds ++ (deed.putting?.toList.filter fun e => e.1 = c).map Prod.snd := by
  rw [sentTo, puttings_concat, List.filter_append, List.map_append, ← sentTo]

theorem mem_takings {i : Nat} {m : Message α} {deeds : List (Deed α)} :
    (i, m) ∈ takings deeds ↔ .took i m ∈ deeds := by
  rw [takings, List.mem_filterMap]
  constructor
  · rintro ⟨deed, hdeed, htaking⟩
    cases deed with
    | took j n =>
        cases htaking
        exact hdeed
    | missed j => cases htaking
    | routed j c body => cases htaking
    | checked j empty => cases htaking
    | closed c => cases htaking
  · exact fun h => ⟨_, h, rfl⟩

section

variable [Payload α]

theorem warningsFrom_append (names : Nat → String) (before es fs : List (Nat × Message α)) :
    warningsFrom names before (es ++ fs) =
      warningsFrom names before es ++ warningsFrom names (before ++ es) fs := by
  induction es generalizing before with
  | nil => simp [warningsFrom]
  | cons e es ih => simp [warningsFrom, ih]

theorem warnings_concat (names : Nat → String) (es : List (Nat × Message α))
    (e : Nat × Message α) :
    warnings names (es ++ [e]) = warnings names es ++ warning names es e := by
  simp [warnings, warningsFrom_append, warningsFrom]

/-- What is taken is a text of a category, a text of none, or an end mark. -/
theorem length_takings (es : List (Nat × Message α)) :
    es.length = (es.filterMap assign?).length + es.countP (fun e => isStray e.2) +
      es.countP fun e => e.2.isDone := by
  induction es with
  | nil => rfl
  | cons e es ih =>
      obtain ⟨i, m⟩ := e
      rw [List.length_cons, ih, List.countP_cons, List.countP_cons]
      cases m with
      | done =>
          rw [List.filterMap_cons_none rfl]
          simp only [isStray, Message.isDone_done, if_true, Bool.false_eq_true, if_false]
          omega
      | item body =>
          simp only [Message.isDone_item, Bool.false_eq_true, if_false]
          cases hclass : Category.classify (Payload.text body) with
          | none =>
              rw [List.filterMap_cons_none (by simp [assign?, hclass])]
              simp only [isStray, hclass, Option.isNone_none, if_true]
              omega
          | some c =>
              rw [List.filterMap_cons_some (b := (i, c, body)) (by simp [assign?, hclass])]
              simp only [isStray, hclass, Option.isNone_some, Bool.false_eq_true, if_false,
                List.length_cons]
              omega

/-- The texts of a category among those that are assigned to one. -/
theorem filter_assigned (es : List (Nat × Message α)) (c : Category) :
    ((es.filterMap assign?).filter fun e => e.2.1 = c).map (fun e => (e.1, Message.item e.2.2)) =
      es.filter fun e => isTextOf c e.2 := by
  induction es with
  | nil => rfl
  | cons e es ih =>
      obtain ⟨i, m⟩ := e
      cases m with
      | done => rw [List.filterMap_cons_none rfl, ih, List.filter_cons_of_neg (by simp [isTextOf])]
      | item body =>
          cases hclass : Category.classify (Payload.text body) with
          | none =>
              rw [List.filterMap_cons_none (by simp [assign?, hclass]), ih,
                List.filter_cons_of_neg (by simp [isTextOf, hclass])]
          | some d =>
              rw [List.filterMap_cons_some (b := (i, d, body)) (by simp [assign?, hclass])]
              by_cases hdc : d = c
              · rw [List.filter_cons_of_pos (by simpa using hdc), List.map_cons, ih,
                  List.filter_cons_of_pos (by simpa [isTextOf, hclass] using hdc)]
              · rw [List.filter_cons_of_neg (by simpa using hdc), ih,
                  List.filter_cons_of_neg (by simpa [isTextOf, hclass] using hdc)]

/-- The same without the sources. -/
theorem map_filter_assigned (es : List (Nat × Message α)) (c : Category) :
    ((es.filterMap assign?).filter fun e => e.2.1 = c).map (fun e => Message.item e.2.2) =
      (es.map Prod.snd).filter (isTextOf c) := by
  have hassigned := congrArg (List.map Prod.snd) (filter_assigned es c)
  rw [List.map_map] at hassigned
  rw [List.filter_map]
  exact hassigned

end

/-! ### What is known of the sources -/

theorem known_start (n : Nat) : Known ([] : List (Deed α)) (start n : Dispatcher α).sources := by
  have hactive : ∀ (i : Nat) (s : SourceStatus),
      (start n : Dispatcher α).sources[i]? = some s → s = .active := by
    intro i s hs
    rw [sources_start] at hs
    exact List.eq_of_mem_replicate (List.mem_of_getElem? hs)
  refine ⟨fun i s hs => ?_, fun i s hs => ?_⟩
  · simpa using hactive i s hs
  · simp [hactive i s hs]

variable {names : Nat → String} {deeds : List (Deed α)} {deed : Deed α} {d d' : Dispatcher α}
  {es events : List Event} {sources : List SourceStatus} {i : Nat}

/-- Nothing is learnt of a source but from its end marks and from finding it empty. -/
theorem Known.concat (h : Known deeds sources) (htook : ∀ i, deed ≠ .took i .done)
    (hchecked : ∀ i, deed ≠ .checked i true) : Known (deeds ++ [deed]) sources := by
  refine ⟨fun i s hs => ?_, fun i s hs => ?_⟩
  · simpa [(htook i).symm] using h.active i s hs
  · simpa [(hchecked i).symm] using h.done i s hs

/-- After an end mark a source drains. -/
theorem Known.took_done (h : Known deeds sources) {s : SourceStatus} (hs : sources[i]? = some s)
    (hne : s ≠ .done) : Known (deeds ++ [.took i .done]) (sources.set i .draining) := by
  have hlt := (List.getElem?_eq_some_iff.1 hs).1
  refine ⟨fun j t ht => ?_, fun j t ht => ?_⟩
  · by_cases hji : j = i
    · subst hji
      rw [List.getElem?_set_self hlt] at ht
      cases ht
      simp
    · rw [List.getElem?_set_ne (Ne.symm hji)] at ht
      simpa [hji] using h.active j t ht
  · by_cases hji : j = i
    · subst hji
      rw [List.getElem?_set_self hlt] at ht
      cases ht
      simpa [hne] using h.done j s hs
    · rw [List.getElem?_set_ne (Ne.symm hji)] at ht
      simpa using h.done j t ht

/-- A source that drains is done once it is seen to be empty. -/
theorem Known.checked_true (h : Known deeds sources) (hs : sources[i]? = some .draining) :
    Known (deeds ++ [.checked i true]) (sources.set i .done) := by
  have hlt := (List.getElem?_eq_some_iff.1 hs).1
  refine ⟨fun j t ht => ?_, fun j t ht => ?_⟩
  · by_cases hji : j = i
    · subst hji
      rw [List.getElem?_set_self hlt] at ht
      cases ht
      simpa using h.active j .draining hs
    · rw [List.getElem?_set_ne (Ne.symm hji)] at ht
      simpa using h.active j t ht
  · by_cases hji : j = i
    · subst hji
      rw [List.getElem?_set_self hlt] at ht
      cases ht
      simp
    · rw [List.getElem?_set_ne (Ne.symm hji)] at ht
      simpa [hji] using h.done j t ht

/-! ### Steps -/

theorem idle_of_scan (h : d.phase = scan i d.sources) : d.Idle := by
  rcases scan_cases (α := α) i d.sources with ⟨j, s, hscan, -, -⟩ | ⟨hscan, -⟩
  · exact ⟨by simp [inHand, h, hscan], by simp [unclosed, h, hscan], by simp [ending, h, hscan]⟩
  · exact ⟨by simp [inHand, h, hscan], by simp [unclosed, h, hscan, Category.all],
      by simp [ending, h, hscan]⟩

theorem idle_of_polling (h : d.phase = .polling i) : d.Idle :=
  ⟨by simp [inHand, h], by simp [unclosed, h], by simp [ending, h]⟩

theorem idle_of_checking (h : d.phase = .checking i) : d.Idle :=
  ⟨by simp [inHand, h], by simp [unclosed, h], by simp [ending, h]⟩

theorem idle_afterPoll (d : Dispatcher α) (i : Nat) : (d.afterPoll i).Idle := by
  by_cases hdraining : d.sources[i]? = some .draining
  · exact idle_of_checking (i := i) (by rw [phase_afterPoll, if_pos hdraining])
  · exact idle_of_scan (i := i + 1) (by rw [phase_afterPoll, if_neg hdraining, sources_afterPoll])

/-- The source at which a dispatcher looks is not done. -/
theorem Steady.not_done_of_polling (h : d.Steady) (hphase : d.phase = .polling i) :
    ∃ s, d.sources[i]? = some s ∧ s ≠ .done := by
  simpa only [Steady, hphase] using h

variable [Payload α]

theorem Account.start (names : Nat → String) (n : Nat) :
    Account names ([] : List (Deed α)) (start n) [] := by
  have hidle := idle_of_scan (phase_start (α := α) n)
  exact
    { steady := steady_of_scan (phase_start n)
      known := known_start n
      report := rfl
      routings := hidle.inHand
      closings := hidle.unclosed
      puttings := rfl
      events := hidle.ending.symm }

/-- An end mark is a further one if it finds its source draining. -/
theorem Account.draining_iff (h : Account names deeds d events) (hphase : d.phase = .polling i) :
    d.sources[i]? = some .draining ↔
      (takings deeds).any (fun e => e.1 = i && e.2.isDone) = true := by
  obtain ⟨s, hs, hne⟩ := h.steady.not_done_of_polling hphase
  have hactive := h.known.active i s hs
  have hany : (takings deeds).any (fun e => e.1 = i && e.2.isDone) = true ↔
      .took i .done ∈ deeds := by
    rw [List.any_eq_true]
    constructor
    · rintro ⟨⟨j, m⟩, hmem, hfirst⟩
      cases m with
      | item body => simp at hfirst
      | done =>
          obtain rfl : j = i := by simpa using hfirst
          exact mem_takings.1 hmem
    · exact fun hmem => ⟨(i, .done), mem_takings.2 hmem, by simp⟩
  rw [hany, hs]
  cases s with
  | active => simpa using hactive
  | draining => simpa using hactive
  | done => exact absurd rfl hne

/-- A step from source to source, in which no text comes into the hands of the dispatcher. -/
theorem Account.idle (h : Account names deeds d events) (hidle : d.Idle) (hidle' : d'.Idle)
    (hsteady : d'.Steady) (hknown : Known (deeds ++ [deed]) d'.sources)
    (hreport : d'.report = counts (deeds ++ [deed])) (hrouting : deed.routing? = none)
    (hclosing : deed.closing? = none) (htaking : deed.taking?.bind assign? = none)
    (hwarning : es = (deed.taking?.map (warning names (takings deeds))).getD []) :
    Account names (deeds ++ [deed]) d' (events ++ es) := by
  have hroutings := h.routings
  have hclosings := h.closings
  have hevents := h.events
  rw [hidle.inHand, List.append_nil] at hroutings
  rw [hidle.unclosed] at hclosings
  rw [hidle.ending, List.append_nil] at hevents
  refine
    { steady := hsteady
      known := hknown
      report := hreport
      routings := ?_
      closings := ?_
      puttings := ?_
      events := ?_ }
  · rw [routings_concat, takings_concat, hrouting, hidle'.inHand, List.filterMap_append,
      ← hroutings]
    cases htaken : deed.taking? with
    | none => simp
    | some e =>
        rw [htaken] at htaking
        simp [show assign? e = none from htaking]
  · rw [closings_concat, hclosing, hidle'.unclosed]
    simpa using hclosings
  · have hputting : deed.putting? = none := by
      cases deed with
      | routed j c body => cases hrouting
      | closed c => cases hclosing
      | _ => rfl
    rw [puttings_concat, routings_concat, closings_concat, hputting, hrouting, hclosing]
    simpa using h.puttings
  · rw [takings_concat, hidle'.ending, hwarning, hevents]
    cases deed.taking? with
    | none => simp
    | some e => simp [warnings_concat]

/-- A look at a source that found nothing. -/
theorem Account.miss (h : Account names deeds d events) (hphase : d.phase = .polling i) :
    Account names (deeds ++ [.missed i]) (d.afterPoll i) (events ++ []) := by
  refine h.idle (idle_of_polling hphase) (idle_afterPoll d i) (steady_afterPoll d i) ?_ ?_ rfl rfl
    rfl rfl
  · rw [sources_afterPoll]
    exact h.known.concat (fun j => nofun) fun j => nofun
  · simp [counts, h.report]

/-- An end mark that was taken. -/
theorem Account.take_done (h : Account names deeds d events) (hphase : d.phase = .polling i) :
    Account names (deeds ++ [.took i .done]) ((d.receiveDone i).afterPoll i)
      (events ++ (d.polled i (names i) (some .done)).2) := by
  obtain ⟨s, hs, hne⟩ := h.steady.not_done_of_polling hphase
  refine h.idle (idle_of_polling hphase) (idle_afterPoll _ i) (steady_afterPoll _ i) ?_ ?_ rfl rfl
    rfl ?_
  · rw [sources_afterPoll]
    exact h.known.took_done hs hne
  · simp [counts, h.report, receiveDone, isStray]
  · simp only [polled, warning, h.draining_iff hphase, Deed.taking?, Option.map_some,
      Option.getD_some]

/-- A text of no category that was taken. -/
theorem Account.take_stray (h : Account names deeds d events) (hphase : d.phase = .polling i)
    {body : α} (hc : Category.classify (Payload.text body) = none) :
    Account names (deeds ++ [.took i (.item body)]) (d.polled i (names i) (some (.item body))).1
      (events ++ [.dropped (Payload.text body)]) := by
  have hpolled : (d.polled i (names i) (some (.item body))).1 =
      afterPoll { d with report := { d.report with dropped := d.report.dropped + 1 } } i := by
    simp [polled, hc]
  rw [hpolled]
  refine h.idle (idle_of_polling hphase) (idle_afterPoll _ i) (steady_afterPoll _ i) ?_ ?_ rfl rfl
    ?_ ?_
  · rw [sources_afterPoll]
    exact h.known.concat (fun j => nofun) fun j => nofun
  · simp [counts, h.report, isStray, hc]
  · simp [assign?, hc]
  · simp [warning, isStray, hc]

/-- A text of a category that was taken. -/
theorem Account.take_item (h : Account names deeds d events) (hphase : d.phase = .polling i)
    {body : α} {c : Category} (hc : Category.classify (Payload.text body) = some c) :
    Account names (deeds ++ [.took i (.item body)]) { d with phase := .routing i c body }
      events := by
  have hidle := idle_of_polling hphase
  have hroutings := h.routings
  have hevents := h.events
  rw [hidle.inHand, List.append_nil] at hroutings
  rw [hidle.ending] at hevents
  refine
    { steady := ?_
      known := h.known.concat (fun j => nofun) fun j => nofun
      report := ?_
      routings := ?_
      closings := ?_
      puttings := ?_
      events := ?_ }
  · simpa only [Steady, hphase] using h.steady
  · simp [counts, h.report, isStray, hc]
  · simp [assign?, inHand, hc, hroutings]
  · simpa [unclosed, hphase] using h.closings
  · simpa using h.puttings
  · simp [warnings_concat, warning, isStray, hc, ending, hevents]

/-- A text that was put into the queue of its category. -/
theorem Account.route (h : Account names deeds d events) {c : Category} {body : α}
    (hphase : d.phase = .routing i c body) :
    Account names (deeds ++ [.routed i c body]) (d.routed i c) events := by
  have hidle' : (d.routed i c).Idle := idle_afterPoll _ i
  have hroutings := h.routings
  have hclosings := h.closings
  have hevents := h.events
  rw [inHand, hphase] at hroutings
  rw [unclosed, hphase] at hclosings
  rw [ending, hphase] at hevents
  refine
    { steady := steady_afterPoll _ i
      known := ?_
      report := ?_
      routings := ?_
      closings := ?_
      puttings := ?_
      events := ?_ }
  · rw [Dispatcher.routed, sources_afterPoll]
    exact h.known.concat (fun j => nofun) fun j => nofun
  · simp [Dispatcher.routed, counts, h.report, Tally.ofList_concat]
  · simpa [hidle'.inHand] using hroutings
  · simpa [hidle'.unclosed] using hclosings
  · -- no category has its end mark yet
    have hnone : Dispatcher.closings deeds = [] := List.append_left_eq_self.1 hclosings
    simp [h.puttings, hnone]
  · simpa [hidle'.ending] using hevents

/-- A source that was seen to be empty, or not. -/
theorem Account.check (h : Account names deeds d events) (hphase : d.phase = .checking i)
    (empty : Bool) :
    Account names (deeds ++ [.checked i empty]) (d.checked i empty) (events ++ []) := by
  refine h.idle (idle_of_checking hphase) (idle_of_scan rfl) (steady_of_scan rfl) ?_ ?_ rfl rfl
    rfl rfl
  · cases empty with
    | true => exact h.known.checked_true (h.steady.draining_of_checking hphase)
    | false => exact h.known.concat (fun j => nofun) fun j => by simp
  · simp [Dispatcher.checked, counts, h.report]

/-- An end mark that was put into the queue of a category. -/
theorem Account.close (h : Account names deeds d events) {c : Category} {cs : List Category}
    (hphase : d.phase = .closing c cs) :
    Account names (deeds ++ [.closed c]) (d.closed cs).1 (events ++ (d.closed cs).2) := by
  have hroutings := h.routings
  have hclosings := h.closings
  have hevents := h.events
  rw [inHand, hphase] at hroutings
  rw [unclosed, hphase] at hclosings
  rw [ending, hphase] at hevents
  refine
    { steady := h.steady.closed hphase
      known := ?_
      report := ?_
      routings := ?_
      closings := ?_
      puttings := ?_
      events := ?_ }
  · rw [sources_closed]
    exact h.known.concat (fun j => nofun) fun j => nofun
  · cases cs <;> simp [Dispatcher.closed, counts, h.report]
  · cases cs <;> simpa [Dispatcher.closed, inHand] using hroutings
  · cases cs <;> simpa [Dispatcher.closed, unclosed] using hclosings
  · simp [h.puttings]
  · cases cs <;> simpa [Dispatcher.closed, ending] using hevents

/-- A dispatcher accounts for its deeds after every step. -/
theorem Account.does (h : Account names deeds d events) (hdoes : Does names d deed d' es) :
    Account names (deeds ++ [deed]) d' (events ++ es) := by
  cases hdoes with
  | @take i m hphase =>
      cases m with
      | done => exact h.take_done hphase
      | item body =>
          cases hc : Category.classify (Payload.text body) with
          | some c => simpa [polled, hc] using h.take_item hphase hc
          | none => simpa [polled, hc] using h.take_stray hphase hc
  | miss hphase => exact h.miss hphase
  | route hphase => simpa using h.route hphase
  | check empty hphase => exact h.check hphase empty
  | close hphase => exact h.close hphase

/-! ### What follows -/

theorem Does.phase_of_missed (hdoes : Does names d (.missed i) d' es) : d.phase = .polling i := by
  cases hdoes with
  | miss hphase => exact hphase

theorem Does.length_sources (hdoes : Does names d deed d' es) :
    d'.sources.length = d.sources.length := by
  cases hdoes with
  | @take i m hphase =>
      cases m with
      | done => simp [polled, receiveDone]
      | item body => cases hc : Category.classify (Payload.text body) <;> simp [polled, hc]
  | miss hphase => rw [sources_afterPoll]
  | route hphase => rw [Dispatcher.routed, sources_afterPoll]
  | @check i empty hphase =>
      cases empty with
      | false => rfl
      | true => exact List.length_set
  | close hphase => rw [sources_closed]

/-- Every message that was taken is counted once, or is in hand. -/
theorem Account.length_takings (h : Account names deeds d events) :
    (takings deeds).length = d.report.routed.sum + d.report.dropped + d.report.sentinelsReceived +
      d.inHand.length := by
  rw [Dispatcher.length_takings, ← h.routings, List.length_append, h.report]
  simp only [counts, Tally.sum_ofList, List.length_map]
  omega

/-- A category gets its texts before its end mark. -/
theorem Account.sentTo_eq (h : Account names deeds d events) (c : Category) :
    sentTo c deeds =
      (((Dispatcher.routings deeds).filter fun e => e.2.1 = c).map fun e => .item e.2.2) ++
        ((Dispatcher.closings deeds).filter fun e => e = c).map fun _ => .done := by
  rw [sentTo, h.puttings, List.filter_append, List.map_append, List.filter_map, List.filter_map,
    List.map_map, List.map_map]
  rfl

/-- A category has its end mark only when all sources are done. -/
theorem Account.all_done (h : Account names deeds d events) {c : Category}
    (hclosed : .closed c ∈ deeds) : ∀ s ∈ d.sources, s = .done := by
  have hmem : c ∈ Dispatcher.closings deeds := List.mem_filterMap.2 ⟨_, hclosed, rfl⟩
  have hunclosed : d.unclosed ≠ Category.all := by
    intro hall
    have hclosings := h.closings
    rw [hall] at hclosings
    rw [List.append_left_eq_self.1 hclosings] at hmem
    cases hmem
  have hsteady := h.steady
  unfold Steady at hsteady
  cases hphase : d.phase with
  | closing next cs =>
      rw [hphase] at hsteady
      exact hsteady.1
  | finished =>
      rw [hphase] at hsteady
      exact hsteady
  | polling i => exact absurd (by rw [unclosed, hphase]) hunclosed
  | routing i next body => exact absurd (by rw [unclosed, hphase]) hunclosed
  | checking i => exact absurd (by rw [unclosed, hphase]) hunclosed

end Newsroom.Dispatcher
