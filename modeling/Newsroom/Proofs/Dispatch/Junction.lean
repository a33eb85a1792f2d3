import Newsroom.Proofs.Dispatch.Port
import Newsroom.Proofs.Dispatch.Transcript
import Newsroom.Proofs.Schedule

/-!
# What a dispatcher does among threads

A dispatcher with sources that other threads fill in any way, in the steps that they all take at
the buffers.

## Main Definitions

* `Junction.Step` — the steps at a junction as a relation, one constructor for each kind
* `Junction.Fresh` — a junction at which nothing has happened
* `Junction.atSource`, `Junction.atCategory` — what was done at a buffer
* `Junction.taken` — the messages that the dispatcher has taken
* `Junction.Attended` — how a junction stands, by what the dispatcher has done

## Main Statements

* `step_of_act?` — every step is one of the relation
* `Attended.sources_concat`, `categories_concat` — the buffers after something was done at one
* `Attended.poll`, `Attended.find`, `Attended.put`, `Attended.give`, `Attended.look` — a step of
  the dispatcher
* `Attended.other_source`, `Attended.other_category` — a step of another thread
* `attended_of_trace?` — how a junction stands after any run

## Design Notes

The dispatcher does a deed when its operation returns.  Before that it may be in the middle of
the operation at one buffer, and all other buffers know it as ready.
-/

namespace Newsroom

/-- The message that a dispatcher is about to put into the buffer of a category. -/
def Dispatcher.giving? {α : Type} (d : Dispatcher α) (c : Category) : Option (Message α) :=
  match d.phase with
  | .routing _ e body => if e = c then some (.item body) else none
  | .closing e _ => if e = c then some .done else none
  | _ => none

namespace Junction

open Buffer (Arrival arrivals pushes pops messagesOf)
open Dispatcher (Deed Does Account takings sentTo isTextOf)
open Port (Tended Served)

variable {α : Type}

/-! ### Steps -/

/-- What a dispatcher puts into the buffer of a category, and how it goes on after that. -/
inductive Gives (d : Dispatcher α) : Category → Message α → Dispatcher α × List Event → Prop
  | route {i : Nat} {c : Category} {body : α} (hphase : d.phase = .routing i c body) :
    Gives d c (.item body) (d.routed i c, [])
  | close {c : Category} {cs : List Category} (hphase : d.phase = .closing c cs) :
    Gives d c .done (d.closed cs)

/-- What happens in one step. -/
inductive Step [Payload α] (s : Junction α) : Act α → Junction α → Prop
  /-- The dispatcher goes on with its look at a source. -/
  | poll {i : Nat} {p p' : Port α} {y : Port.Act α} (hphase : s.dispatcher.phase = .polling i)
      (hp : s.sources[i]? = some p) (hcall : p.call? .tryRemove = some (y, p'))
      (hfound : y.found? = none) : Step s (.source i 0 y) (s.setSource i p')
  /-- The dispatcher has found a message in a source, or none. -/
  | find {i : Nat} {p p' : Port α} {y : Port.Act α} {m : Option (Message α)}
      (hphase : s.dispatcher.phase = .polling i) (hp : s.sources[i]? = some p)
      (hcall : p.call? .tryRemove = some (y, p')) (hfound : y.found? = some m) :
      Step s (.source i 0 y) ((s.setSource i p').goOn (s.dispatcher.polled i p.name m))
  /-- The dispatcher goes on with an insertion into the buffer of a category. -/
  | put {c : Category} {m : Message α} {next : Dispatcher α × List Event} {p' : Port α}
      {y : Port.Act α} (hgives : Gives s.dispatcher c m next)
      (hcall : (s.categories.get c).call? (.insert m) = some (y, p'))
      (hreturn : y ≠ .does .returnInsert) : Step s (.category c 0 y) (s.setCategory c p')
  /-- The insertion of the dispatcher returns. -/
  | give {c : Category} {m : Message α} {next : Dispatcher α × List Event} {p' : Port α}
      (hgives : Gives s.dispatcher c m next)
      (hcall : (s.categories.get c).call? (.insert m) = some (.does .returnInsert, p')) :
      Step s (.category c 0 (.does .returnInsert)) ((s.setCategory c p').goOn next)
  /-- The dispatcher sees whether a source is empty. -/
  | look {i : Nat} {p : Port α} (hphase : s.dispatcher.phase = .checking i)
      (hp : s.sources[i]? = some p) :
      Step s (.check i (p.hint == 0)) (s.goOn (s.dispatcher.checked i (p.hint == 0), []))
  /-- Another thread takes a step at a source. -/
  | otherSource {i j : Nat} {p p' : Port α} {y : Port.Act α} (hp : s.sources[i]? = some p)
      (hact : p.act? (j + 1) = some (y, p')) : Step s (.source i (j + 1) y) (s.setSource i p')
  /-- Another thread takes a step at the buffer of a category. -/
  | otherCategory {c : Category} {j : Nat} {p' : Port α} {y : Port.Act α}
      (hact : (s.categories.get c).act? (j + 1) = some (y, p')) :
      Step s (.category c (j + 1) y) (s.setCategory c p')

private theorem step_of_poll? [Payload α] {s s' : Junction α} {i : Nat} {x : Act α}
    (hphase : s.dispatcher.phase = .polling i) (h : s.poll? i = some (x, s')) : Step s x s' := by
  obtain ⟨p, hp, h⟩ := Option.bind_eq_some_iff.1 h
  obtain ⟨⟨y, p'⟩, hcall, heq⟩ := Option.map_eq_some_iff.1 h
  cases hfound : y.found? with
  | none =>
      simp only [hfound] at heq
      cases heq
      exact .poll hphase hp hcall hfound
  | some m =>
      simp only [hfound] at heq
      cases heq
      exact .find hphase hp hcall hfound

private theorem step_of_put? [Payload α] {s s' : Junction α} {c : Category} {m : Message α}
    {next : Dispatcher α × List Event} {x : Act α} (hgives : Gives s.dispatcher c m next)
    (h : s.put? c m next = some (x, s')) : Step s x s' := by
  obtain ⟨⟨y, p'⟩, hcall, heq⟩ := Option.map_eq_some_iff.1 h
  by_cases hreturn : y = .does .returnInsert
  · subst hreturn
    cases heq
    exact .give hgives hcall
  · have hgoes : s.setCategory c p' = s' := by
      have hsnd := congrArg Prod.snd heq
      cases y with
      | counts => exact hsnd
      | does z =>
          cases z with
          | returnInsert => exact absurd rfl hreturn
          | _ => exact hsnd
    cases congrArg Prod.fst heq
    subst hgoes
    exact .put hgives hcall hreturn

/-- What the step function does the relation allows. -/
theorem step_of_act? [Payload α] {s s' : Junction α} {m : Move} {x : Act α}
    (hact : s.act? m = some (x, s')) : Step s x s' := by
  cases m with
  | source i j =>
      obtain ⟨p, hp, hact⟩ := Option.bind_eq_some_iff.1 hact
      obtain ⟨⟨y, p'⟩, hstep, heq⟩ := Option.map_eq_some_iff.1 hact
      cases heq
      exact .otherSource hp hstep
  | category c j =>
      obtain ⟨⟨y, p'⟩, hstep, heq⟩ := Option.map_eq_some_iff.1 hact
      cases heq
      exact .otherCategory hstep
  | dispatcher =>
      cases hphase : s.dispatcher.phase with
      | polling i =>
          simp only [act?, dispatch?, hphase] at hact
          exact step_of_poll? hphase hact
      | routing i c body =>
          simp only [act?, dispatch?, hphase] at hact
          exact step_of_put? (.route hphase) hact
      | checking i =>
          simp only [act?, dispatch?, hphase] at hact
          obtain ⟨p, hp, heq⟩ := Option.map_eq_some_iff.1 hact
          cases heq
          exact .look hphase hp
      | closing c cs =>
          simp only [act?, dispatch?, hphase] at hact
          exact step_of_put? (.close hphase) hact
      | finished =>
          simp only [act?, dispatch?, hphase] at hact
          cases hact

/-! ### What was done -/

/-- What an act does at a source. -/
@[simp] def Act.atSource (i : Nat) : Act α → List (Nat × Buffer.Act (Message α))
  | source k j x => if k = i then x.inBuffer j else []
  | category _ _ _ => []
  | check _ _ => []

/-- What an act does at the buffer of a category. -/
@[simp] def Act.atCategory (c : Category) : Act α → List (Nat × Buffer.Act (Message α))
  | category e j x => if e = c then x.inBuffer j else []
  | source _ _ _ => []
  | check _ _ => []

/-- The message that the dispatcher takes by an act, with its source. -/
def Act.taken : Act α → List (Nat × Message α)
  | source i 0 (.does (.returnRemove m)) => [(i, m)]
  | _ => []

/-- What was done at a source. -/
def atSource (i : Nat) (acts : List (Act α)) : List (Nat × Buffer.Act (Message α)) :=
  acts.flatMap (Act.atSource i)

/-- What was done at the buffer of a category. -/
def atCategory (c : Category) (acts : List (Act α)) : List (Nat × Buffer.Act (Message α)) :=
  acts.flatMap (Act.atCategory c)

/-- The messages that the dispatcher has taken, each with its source. -/
def taken (acts : List (Act α)) : List (Nat × Message α) := acts.flatMap Act.taken

theorem atSource_concat (i : Nat) (acts : List (Act α)) (x : Act α) :
    atSource i (acts ++ [x]) = atSource i acts ++ x.atSource i := by
  rw [atSource, List.flatMap_append, List.flatMap_singleton, ← atSource]

theorem atCategory_concat (c : Category) (acts : List (Act α)) (x : Act α) :
    atCategory c (acts ++ [x]) = atCategory c acts ++ x.atCategory c := by
  rw [atCategory, List.flatMap_append, List.flatMap_singleton, ← atCategory]

theorem taken_concat (acts : List (Act α)) (x : Act α) :
    taken (acts ++ [x]) = taken acts ++ x.taken := by
  rw [taken, List.flatMap_append, List.flatMap_singleton, ← taken]

/-- What the dispatcher takes is what it has found in a source. -/
theorem taken_source_zero (i : Nat) (x : Port.Act α) :
    (Act.source i 0 x).taken = x.found?.join.toList.map fun m => (i, m) := by
  cases x with
  | counts => rfl
  | does y => cases y <;> rfl

/-! ### Junctions -/

/-- A junction at which nothing has happened.  The other threads only put messages into the
sources, and do anything at the buffers of the categories. -/
structure Fresh (s : Junction α) : Prop where
  dispatcher : s.dispatcher = Dispatcher.start s.sources.length
  events : s.events = []
  sources : ∀ p ∈ s.sources, ∃ programs, p.Fresh programs ∧
    ∀ program ∈ programs, ∀ op ∈ program, op.isRemoval = false
  categories : ∀ c, ∃ programs, (s.categories.get c).Fresh programs

/-- The name of a source. -/
def sourceName (s : Junction α) (i : Nat) : String := (s.sources[i]?.map Port.name).getD ""

/-- How a junction stands, that was once in another state, by what the dispatcher has done. -/
structure Attended [Payload α] (s₀ s : Junction α) (acts : List (Act α)) (deeds : List (Deed α)) :
    Prop where
  account : Account s₀.sourceName deeds s.dispatcher s.events
  names : s.sources.map Port.name = s₀.sources.map Port.name
  statuses : s.dispatcher.sources.length = s.sources.length
  takings : takings deeds = taken acts
  checks : ∀ i empty, .checked i empty ∈ deeds ↔ .check i empty ∈ acts
  sources : ∀ (i : Nat) (p : Port α), s.sources[i]? = some p →
    Tended (s.dispatcher.phase = .polling i) (messagesOf i (taken acts)) (atSource i acts) p
  categories : ∀ c, Served (s.dispatcher.giving? c) (sentTo c deeds) (atCategory c acts)
    (s.categories.get c)

variable [Payload α] {s₀ s s' : Junction α} {acts : List (Act α)} {deeds : List (Deed α)}
  {i j : Nat} {c : Category} {p p' : Port α}

theorem Fresh.attended (h : s.Fresh) : Attended s s [] [] := by
  refine
    { account := by rw [h.dispatcher, h.events]; exact Account.start _ _
      names := rfl
      statuses := by rw [h.dispatcher, Dispatcher.sources_start, List.length_replicate]
      takings := rfl
      checks := fun i empty => by simp
      sources := fun i p hp => ?_
      categories := fun c => ?_ }
  · obtain ⟨programs, hfresh, hinserts⟩ := h.sources p (List.mem_of_getElem? hp)
    exact hfresh.tended hinserts _
  · obtain ⟨programs, hfresh⟩ := h.categories c
    exact hfresh.served _

omit [Payload α] in
/-- A source keeps its name. -/
theorem names_setSource (hp : s.sources[i]? = some p) (hname : p'.name = p.name) :
    (s.setSource i p').sources.map Port.name = s.sources.map Port.name :=
  map_set_of_eq hp hname

theorem Attended.name_eq (h : Attended s₀ s acts deeds) (hp : s.sources[i]? = some p) :
    p.name = s₀.sourceName i := by
  have hname : (s₀.sources.map Port.name)[i]? = some p.name := by
    rw [← h.names, List.getElem?_map, hp, Option.map_some]
  rw [List.getElem?_map] at hname
  rw [sourceName, hname, Option.getD_some]

omit [Payload α] in
/-- The sources after one of them has changed. -/
theorem sources_setSource {k : Nat} {q : Port α} (hp : s.sources[i]? = some p)
    (hq : (s.setSource i p').sources[k]? = some q) :
    (k = i ∧ q = p') ∨ (k ≠ i ∧ s.sources[k]? = some q) := by
  rw [setSource, getElem?_set_of_some hp] at hq
  split at hq
  · next hki => exact .inl ⟨hki, (Option.some.inj hq).symm⟩
  · next hki => exact .inr ⟨hki, hq⟩

/-- The sources after something was done at one of them. -/
theorem Attended.sources_concat (h : Attended s₀ s acts deeds) (hp : s.sources[i]? = some p)
    {x : Port.Act α} {P : Nat → Prop} {es : List (Nat × Message α)}
    (hself : Tended (P i) (messagesOf i es) (atSource i acts ++ x.inBuffer j) p')
    (hother : ∀ k, k ≠ i →
      messagesOf k es = messagesOf k (taken acts) ∧ (s.dispatcher.phase = .polling k → P k))
    {k : Nat} {q : Port α} (hq : (s.setSource i p').sources[k]? = some q) :
    Tended (P k) (messagesOf k es) (atSource k (acts ++ [.source i j x])) q := by
  rw [atSource_concat]
  rcases sources_setSource hp hq with ⟨rfl, rfl⟩ | ⟨hki, hq⟩
  · rw [Act.atSource, if_pos rfl]
    exact hself
  · obtain ⟨hsame, hpolling⟩ := hother k hki
    rw [Act.atSource, if_neg (Ne.symm hki), List.append_nil, hsame]
    exact (h.sources k q hq).mono hpolling

omit [Payload α] in
/-- The buffers of the categories after something was done at one of them. -/
theorem categories_concat {x : Port.Act α} {doing : Category → Option (Message α)}
    {sent : Category → List (Message α)}
    (hself : Served (doing c) (sent c) (atCategory c acts ++ x.inBuffer j) p')
    (hother : ∀ e, e ≠ c → Served (doing e) (sent e) (atCategory e acts) (s.categories.get e))
    (e : Category) :
    Served (doing e) (sent e) (atCategory e (acts ++ [.category c j x]))
      ((s.setCategory c p').categories.get e) := by
  rw [atCategory_concat]
  by_cases hec : e = c
  · subst hec
    rw [Act.atCategory, if_pos rfl, setCategory, ByCategory.get_set_self]
    exact hself
  · rw [Act.atCategory, if_neg (Ne.symm hec), List.append_nil, setCategory,
      ByCategory.get_set_of_ne _ hec]
    exact hother e hec

/-! ### Other threads -/

/-- A step of another thread at a source. -/
theorem Attended.other_source (h : Attended s₀ s acts deeds) (hp : s.sources[i]? = some p)
    {x : Port.Act α} (hact : p.act? (j + 1) = some (x, p')) :
    Attended s₀ (s.setSource i p') (acts ++ [.source i (j + 1) x]) deeds := by
  have htaken : taken (acts ++ [.source i (j + 1) x]) = taken acts := by
    rw [taken_concat]
    exact List.append_nil _
  refine
    { account := h.account
      names := (names_setSource hp (Port.name_of_act hact)).trans h.names
      statuses := h.statuses.trans List.length_set.symm
      takings := h.takings.trans htaken.symm
      checks := fun k empty => by simp [h.checks k empty]
      sources := fun k q hq => ?_
      categories := fun c => ?_ }
  · rw [htaken]
    exact h.sources_concat hp ((h.sources i p hp).other hact) (fun k _ => ⟨rfl, id⟩) hq
  · rw [atCategory_concat, Act.atCategory, List.append_nil]
    exact h.categories c

/-- A step of another thread at the buffer of a category. -/
theorem Attended.other_category (h : Attended s₀ s acts deeds) {x : Port.Act α}
    (hact : (s.categories.get c).act? (j + 1) = some (x, p')) :
    Attended s₀ (s.setCategory c p') (acts ++ [.category c (j + 1) x]) deeds := by
  have htaken : taken (acts ++ [.category c (j + 1) x]) = taken acts := by
    rw [taken_concat]
    exact List.append_nil _
  refine
    { account := h.account
      names := h.names
      statuses := h.statuses
      takings := h.takings.trans htaken.symm
      checks := fun k empty => by simp [h.checks k empty]
      sources := fun k q hq => ?_
      categories := categories_concat ((h.categories c).other hact) fun e _ => h.categories e }
  rw [htaken, atSource_concat, Act.atSource, List.append_nil]
  exact h.sources k q hq

/-! ### The dispatcher -/

omit [Payload α] in
theorem giving?_of_polling {d : Dispatcher α} (h : d.phase = .polling i) (c : Category) :
    d.giving? c = none := by
  simp [Dispatcher.giving?, h]

omit [Payload α] in
theorem Gives.giving?_eq {d : Dispatcher α} {m : Message α} {next : Dispatcher α × List Event}
    (h : Gives d c m next) (e : Category) : d.giving? e = if e = c then some m else none := by
  cases h with
  | route hphase => simp [Dispatcher.giving?, hphase, eq_comm]
  | close hphase => simp [Dispatcher.giving?, hphase, eq_comm]

omit [Payload α] in
theorem Gives.phase_ne {d : Dispatcher α} {m : Message α} {next : Dispatcher α × List Event}
    (h : Gives d c m next) (i : Nat) : d.phase ≠ .polling i := by
  cases h with
  | route hphase => simp [hphase]
  | close hphase => simp [hphase]

/-- The deed that is done when an insertion returns. -/
theorem Gives.does {d : Dispatcher α} {m : Message α} {next : Dispatcher α × List Event}
    (h : Gives d c m next) (names : Nat → String) :
    ∃ deed : Deed α, Does names d deed next.1 next.2 ∧ deed.taking? = none ∧
      deed.putting? = some (c, m) ∧ ∀ k empty, .checked k empty ≠ deed := by
  cases h with
  | route hphase => exact ⟨_, .route hphase, rfl, rfl, nofun⟩
  | close hphase => exact ⟨_, .close hphase, rfl, rfl, nofun⟩

/-- The deed that is done when a look at a source returns. -/
theorem does_of_found {d : Dispatcher α} (hphase : d.phase = .polling i) (names : Nat → String)
    (m : Option (Message α)) :
    ∃ deed : Deed α, Does names d deed (d.polled i (names i) m).1 (d.polled i (names i) m).2 ∧
      deed.taking?.toList = m.toList.map (fun m => (i, m)) ∧ deed.putting? = none ∧
      ∀ k empty, .checked k empty ≠ deed := by
  cases m with
  | none => exact ⟨.missed i, .miss hphase, rfl, rfl, nofun⟩
  | some m => exact ⟨.took i m, .take m hphase, rfl, rfl, nofun⟩

/-- The dispatcher goes on with its look at a source. -/
theorem Attended.poll (h : Attended s₀ s acts deeds) (hphase : s.dispatcher.phase = .polling i)
    (hp : s.sources[i]? = some p) {x : Port.Act α} (hcall : p.call? .tryRemove = some (x, p'))
    (hfound : x.found? = none) :
    Attended s₀ (s.setSource i p') (acts ++ [.source i 0 x]) deeds := by
  have hname : p'.name = (p.begin .tryRemove).name := Port.name_of_act hcall
  have htended : Tended True (messagesOf i (taken acts)) (atSource i acts ++ x.inBuffer 0) p' := by
    rcases (h.sources i p hp).call hcall with ⟨-, htended⟩ | ⟨m, hsome, -⟩
    · exact htended
    · cases hfound.symm.trans hsome
  have htaken : taken (acts ++ [.source i 0 x]) = taken acts := by
    rw [taken_concat, taken_source_zero, hfound]
    exact List.append_nil _
  refine
    { account := h.account
      names := (names_setSource hp hname).trans h.names
      statuses := h.statuses.trans List.length_set.symm
      takings := h.takings.trans htaken.symm
      checks := fun k empty => by simp [h.checks k empty]
      sources := fun k q hq => ?_
      categories := fun c => ?_ }
  · rw [htaken]
    exact h.sources_concat hp (htended.mono fun _ => hphase) (fun k _ => ⟨rfl, id⟩) hq
  · rw [atCategory_concat, Act.atCategory, List.append_nil]
    exact h.categories c

/-- The dispatcher goes on after its look at a source. -/
theorem Attended.find (h : Attended s₀ s acts deeds) (hphase : s.dispatcher.phase = .polling i)
    (hp : s.sources[i]? = some p) {x : Port.Act α} {m : Option (Message α)}
    (hcall : p.call? .tryRemove = some (x, p')) (hfound : x.found? = some m) :
    ∃ deed, Attended s₀ ((s.setSource i p').goOn (s.dispatcher.polled i p.name m))
      (acts ++ [.source i 0 x]) (deeds ++ [deed]) := by
  have hname : p'.name = (p.begin .tryRemove).name := Port.name_of_act hcall
  have htended : Tended False (messagesOf i (taken acts) ++ m.toList)
      (atSource i acts ++ x.inBuffer 0) p' := by
    rcases (h.sources i p hp).call hcall with ⟨hnone, -⟩ | ⟨m', hsome, htended⟩
    · cases hfound.symm.trans hnone
    · cases hfound.symm.trans hsome
      exact htended
  obtain ⟨deed, hdoes, htaking, hputting, hchecked⟩ := does_of_found hphase s₀.sourceName m
  rw [← h.name_eq hp] at hdoes
  have htaken : taken (acts ++ [.source i 0 x]) = taken acts ++ m.toList.map fun m => (i, m) := by
    rw [taken_concat, taken_source_zero, hfound]
    rfl
  refine ⟨deed,
    { account := h.account.does hdoes
      names := (names_setSource hp hname).trans h.names
      statuses := (hdoes.length_sources.trans h.statuses).trans List.length_set.symm
      takings := by rw [Dispatcher.takings_concat, h.takings, htaking, htaken]
      checks := fun k empty => by simp [h.checks k empty, hchecked k empty]
      sources := fun k q hq => ?_
      categories := fun c => ?_ }⟩
  · rw [htaken]
    refine h.sources_concat (P := fun k => (s.dispatcher.polled i p.name m).1.phase = .polling k) hp
      ?_ (fun k hki => ⟨?_, fun hk => ?_⟩) hq
    · rw [Buffer.messagesOf_append, if_pos rfl]
      exact htended.mono False.elim
    · rw [Buffer.messagesOf_append, if_neg (Ne.symm hki), List.append_nil]
    · cases hphase.symm.trans hk
      exact absurd rfl hki
  · rw [atCategory_concat, Act.atCategory, List.append_nil, Dispatcher.sentTo_concat, hputting]
    show Served _ (sentTo c deeds ++ []) _ _
    rw [List.append_nil]
    exact (h.categories c).mono (giving?_of_polling hphase c)

omit [Payload α] in
theorem taken_category (acts : List (Act α)) (x : Port.Act α) :
    taken (acts ++ [.category c 0 x]) = taken acts := by
  rw [taken_concat]
  exact List.append_nil _

/-- The sources while the dispatcher is at the buffer of a category. -/
theorem Attended.sources_of_gives (h : Attended s₀ s acts deeds) {m : Message α}
    {next : Dispatcher α × List Event} (hgives : Gives s.dispatcher c m next) (x : Port.Act α)
    {k : Nat} {q : Port α} (hq : s.sources[k]? = some q) (P : Prop) :
    Tended P (messagesOf k (taken (acts ++ [.category c 0 x])))
      (atSource k (acts ++ [.category c 0 x])) q := by
  rw [taken_category, atSource_concat, Act.atSource, List.append_nil]
  exact (h.sources k q hq).mono fun hk => absurd hk (hgives.phase_ne k)

/-- The dispatcher goes on with an insertion. -/
theorem Attended.put (h : Attended s₀ s acts deeds) {m : Message α}
    {next : Dispatcher α × List Event} (hgives : Gives s.dispatcher c m next) {x : Port.Act α}
    (hcall : (s.categories.get c).call? (.insert m) = some (x, p'))
    (hreturn : x ≠ .does .returnInsert) :
    Attended s₀ (s.setCategory c p') (acts ++ [.category c 0 x]) deeds := by
  have hself := h.categories c
  rw [hgives.giving?_eq, if_pos rfl] at hself
  refine
    { account := h.account
      names := h.names
      statuses := h.statuses
      takings := h.takings.trans (taken_category acts x).symm
      checks := fun k empty => by simp [h.checks k empty]
      sources := fun k q hq => h.sources_of_gives hgives x hq _
      categories := categories_concat ?_ fun e _ => h.categories e }
  show Served (s.dispatcher.giving? c) _ _ _
  rw [hgives.giving?_eq, if_pos rfl]
  rcases hself.call hcall with ⟨hreturned, -⟩ | ⟨-, -, hserved⟩
  · exact absurd hreturned hreturn
  · exact hserved

/-- The insertion of the dispatcher returns. -/
theorem Attended.give (h : Attended s₀ s acts deeds) {m : Message α}
    {next : Dispatcher α × List Event} (hgives : Gives s.dispatcher c m next)
    (hcall : (s.categories.get c).call? (.insert m) = some (.does .returnInsert, p')) :
    ∃ deed, Attended s₀ ((s.setCategory c p').goOn next)
      (acts ++ [.category c 0 (.does .returnInsert)]) (deeds ++ [deed]) := by
  obtain ⟨deed, hdoes, htaking, hputting, hchecked⟩ := hgives.does s₀.sourceName
  refine ⟨deed,
    { account := h.account.does hdoes
      names := h.names
      statuses := hdoes.length_sources.trans h.statuses
      takings := by
        rw [Dispatcher.takings_concat, htaking, taken_category]
        exact (List.append_nil _).trans h.takings
      checks := fun k empty => by simp [h.checks k empty, hchecked k empty]
      sources := fun k q hq => h.sources_of_gives hgives _ hq _
      categories := categories_concat ?_ fun e hec => ?_ }⟩
  · have hself := h.categories c
    rw [hgives.giving?_eq, if_pos rfl] at hself
    rw [Dispatcher.sentTo_concat, hputting]
    rcases hself.call hcall with ⟨-, hserved⟩ | ⟨hreturn, -, -⟩
    · simpa using hserved.mono rfl
    · exact absurd rfl hreturn
  · have hother := h.categories e
    rw [hgives.giving?_eq, if_neg hec] at hother
    rw [Dispatcher.sentTo_concat, hputting]
    simpa [Ne.symm hec] using hother.mono rfl

/-- The dispatcher sees whether a source is empty. -/
theorem Attended.look (h : Attended s₀ s acts deeds) (hphase : s.dispatcher.phase = .checking i)
    (empty : Bool) :
    Attended s₀ (s.goOn (s.dispatcher.checked i empty, [])) (acts ++ [.check i empty])
      (deeds ++ [.checked i empty]) := by
  have hdoes : Does s₀.sourceName s.dispatcher (.checked i empty) _ _ := .check empty hphase
  have htaken : taken (acts ++ [.check i empty]) = taken acts := by
    rw [taken_concat]
    exact List.append_nil _
  refine
    { account := h.account.does hdoes
      names := h.names
      statuses := hdoes.length_sources.trans h.statuses
      takings := by rw [Dispatcher.takings_concat, htaken]; simpa using h.takings
      checks := fun k e => by simp [h.checks k e]
      sources := fun k q hq => ?_
      categories := fun c => ?_ }
  · rw [htaken, atSource_concat, Act.atSource, List.append_nil]
    refine (h.sources k q hq).mono fun hk => ?_
    cases hphase.symm.trans hk
  · rw [atCategory_concat, Act.atCategory, List.append_nil]
    show Served _ (sentTo c (deeds ++ [.checked i empty])) _ (s.categories.get c)
    rw [Dispatcher.sentTo_concat]
    simpa using (h.categories c).mono (by simp [Dispatcher.giving?, hphase])

/-- How the junction stands after any step. -/
theorem Attended.step (h : Attended s₀ s acts deeds) {x : Act α} (hstep : Step s x s') :
    ∃ deeds', Attended s₀ s' (acts ++ [x]) deeds' := by
  cases hstep with
  | poll hphase hp hcall hfound => exact ⟨deeds, h.poll hphase hp hcall hfound⟩
  | find hphase hp hcall hfound =>
      obtain ⟨deed, hfind⟩ := h.find hphase hp hcall hfound
      exact ⟨_, hfind⟩
  | put hgives hcall hreturn => exact ⟨deeds, h.put hgives hcall hreturn⟩
  | give hgives hcall =>
      obtain ⟨deed, hgive⟩ := h.give hgives hcall
      exact ⟨_, hgive⟩
  | look hphase hp => exact ⟨_, h.look hphase _⟩
  | otherSource hp hact => exact ⟨deeds, h.other_source hp hact⟩
  | otherCategory hact => exact ⟨deeds, h.other_category hact⟩

/-- How a junction stands after any run. -/
theorem attended_of_trace? (hfresh : s₀.Fresh) {ms : List Move}
    (htrace : Schedule.trace? act? s₀ ms = some (acts, s)) :
    ∃ deeds, Attended s₀ s acts deeds := by
  apply Schedule.trace?_invariant (P := fun s acts => ∃ deeds, Attended s₀ s acts deeds)
    (J := []) ?_ ⟨[], hfresh.attended⟩ htrace
  rintro s J m x s' ⟨deeds, h⟩ hact
  exact h.step (step_of_act? hact)

end Junction

end Newsroom
