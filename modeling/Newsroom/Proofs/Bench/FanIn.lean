import Newsroom.Proofs.Bench.Display
import Newsroom.Proofs.CoEditor
import Newsroom.Proofs.Floor.Progress

/-!
# Three co-editors share the screen queue

The co-editors on the bench, with queues that were filled before, and the screen manager behind
them, which take their steps in any order.

## Main Definitions

* `Interleaves` — lists of the categories that are woven into one
* `Screen.Following` — where the screen manager stands, by the messages that it has taken
* `Bench.editing`, `Bench.editors` — the four stages on the bench
* `Floor.Fanning` — how the floor stands, by what was forwarded and what was taken
* `Bench.FannedIn` — what comes of the queues of the categories

## Main Statements

* `Fanning.step` — every step of the four stages keeps the floor in order
* `Fanning.progress` — until all four stages have finished one of them can take a step
* `fans_in` — what comes of any three queues with an end mark each

## Design Notes

A co-editor takes a message in one step and hands it on in another.  However long it edits in
between, the other stages only take more or fewer steps meanwhile.
-/

namespace Newsroom

variable {ρ α β : Type}

/-! ### Interleavings -/

/-- What carries a category among the entries of a list, in its order. -/
def share (c : Category) (tagged : List (Category × β)) : List β :=
  tagged.filterMap fun e => if e.1 = c then some e.2 else none

/-- A list that is woven from one list of each category. -/
def Interleaves (parts : Category → List β) (l : List β) : Prop :=
  ∃ tagged : List (Category × β), tagged.map Prod.snd = l ∧ ∀ c, share c tagged = parts c

theorem share_concat (c d : Category) (tagged : List (Category × β)) (b : β) :
    share d (tagged ++ [(c, b)]) = share d tagged ++ if c = d then [b] else [] := by
  by_cases hcd : c = d <;> simp [share, List.filterMap_append, hcd]

/-- The texts of messages that are woven from those of the categories are so themselves. -/
theorem interleaves_bodies (sent : List (Category × Message α)) :
    Interleaves (fun c => (share c sent).filterMap Message.body?)
      ((sent.map Prod.snd).filterMap Message.body?) := by
  refine ⟨sent.filterMap fun e => e.2.body?.map fun body => (e.1, body), ?_, fun c => ?_⟩
  · rw [List.map_filterMap, List.filterMap_map]
    congr 1
    funext ⟨c, m⟩
    cases m <;> rfl
  · simp only [share, List.filterMap_filterMap]
    congr 1
    funext ⟨d, m⟩
    by_cases hdc : d = c <;> cases m <;> simp [hdc]

/-! ### The screen manager -/

namespace Screen

variable {sink : Sink} {taken : List (Message α)} {s : Screen α}

/-- The screen manager has taken some messages and may have shown its last line as well. -/
def Following (sink : Sink) (taken : List (Message α)) (s : Screen α) : Prop :=
  s = after sink taken ∨
    taken.countP Message.isDone = sentinelsExpected ∧ s = ((after sink taken).close sink).1

/-- Where it stands, while its display does not panic. -/
theorem Following.phase_cases (h : Following sink taken s) (hsink : sink.NeverPanics)
    (hle : taken.countP Message.isDone ≤ sentinelsExpected) :
    (s.phase = .waiting ∧ taken.countP Message.isDone < sentinelsExpected ∧ s = after sink taken) ∨
    (s.phase = .closing ∧ taken.countP Message.isDone = sentinelsExpected ∧ s = after sink taken) ∨
    (s.phase = .finished ∧ taken.countP Message.isDone = sentinelsExpected ∧
      s.given = (taken.filterMap Message.body?).map .item ++ [.done]) := by
  rcases h with rfl | ⟨hall, rfl⟩
  · by_cases hmore : taken.countP Message.isDone < sentinelsExpected
    · exact .inl ⟨phase_after hmore, hmore, rfl⟩
    · have hall : taken.countP Message.isDone = sentinelsExpected := by omega
      exact .inr (.inl ⟨phase_after_all hall, hall, rfl⟩)
  · rw [close_after sink hall, if_neg (hsink _)]
    exact .inr (.inr ⟨rfl, hall, rfl⟩)

theorem Following.took (h : Following sink taken s) (hsink : sink.NeverPanics)
    (hle : taken.countP Message.isDone ≤ sentinelsExpected) (hphase : s.phase = .waiting)
    (m : Message α) : Following sink (taken ++ [m]) (s.took sink m).1 := by
  rcases h.phase_cases hsink hle with ⟨-, hmore, rfl⟩ | ⟨hother, -⟩ | ⟨hother, -⟩
  · exact .inl (took_after hmore fun _ _ => hsink _)
  · cases hphase.symm.trans hother
  · cases hphase.symm.trans hother

theorem Following.close (h : Following sink taken s) (hsink : sink.NeverPanics)
    (hle : taken.countP Message.isDone ≤ sentinelsExpected) (hphase : s.phase = .closing) :
    Following sink taken (s.close sink).1 := by
  rcases h.phase_cases hsink hle with ⟨hother, -⟩ | ⟨-, hall, rfl⟩ | ⟨hother, -⟩
  · cases hphase.symm.trans hother
  · exact .inr ⟨hall, rfl⟩
  · cases hphase.symm.trans hother

end Screen

/-! ### The stages on the bench -/

namespace Bench

/-- Three co-editors and the screen manager on the bench before their first steps. -/
def editing (inputs : ByCategory (Queue (Message α))) (screenQueue : Queue (Message α)) :
    Bench ρ α where
  floor := { (bare : Floor ρ α) with categories := inputs, screenQueue }

/-- The stages that take steps. -/
def editors : List Actor :=
  .screen :: Category.all.map .coEditor

theorem coEditor_mem_editors (c : Category) : .coEditor c ∈ editors :=
  List.mem_cons_of_mem _ (List.mem_map_of_mem (Category.mem_all c))

/-- What comes of the queues of the categories: their texts before the first end mark are shown, and
the messages after it are left. -/
structure FannedIn [Payload α] (inputs : ByCategory (Queue (Message α))) (b : Bench ρ α) :
    Prop where
  left : ∀ c, (inputs.get c).items =
    (Message.beforeMark (inputs.get c).items).map .item ++ .done :: (b.floor.categories.get c).items
  forwarded : ∀ c, (b.floor.coEditors.get c).forwarded =
    (Message.beforeMark (inputs.get c).items).length
  shown : ∃ texts : List α, Interleaves (fun c => Message.beforeMark (inputs.get c).items) texts ∧
    b.floor.screen.given = texts.map .item ++ [.done] ∧
    b.floor.screen.given.map Message.text = texts.map Payload.text ++ ["DONE"]
  emptied : b.floor.screenQueue.items = []

end Bench

/-! ### Steps -/

namespace Floor

/-- How the floor stands after some messages were forwarded and some of these were taken. -/
structure Fanning (sink : Sink) (inputs : ByCategory (Queue (Message α))) (f : Floor ρ α)
    (sent : List (Category × Message α)) (taken : List (Message α)) : Prop where
  parts : ∀ c, CoEditor.Forwarding (inputs.get c).items (f.coEditors.get c) (share c sent)
    (f.categories.get c).items
  order : sent.map Prod.snd = taken ++ f.screenQueue.items
  room : 0 < f.screenQueue.capacity
  link : Link 3 (closedCoEditors f.coEditors) (taken.countP Message.isDone) f.screenQueue.items
  screen : Screen.Following sink taken f.screen

variable {sink : Sink} {inputs : ByCategory (Queue (Message α))} {f f' : Floor ρ α}
  {sent : List (Category × Message α)} {taken : List (Message α)} {c : Category} {m : Message α}
  {r : Queue (Message α)}

theorem Fanning.start {screenQueue : Queue (Message α)} (hroom : 0 < screenQueue.capacity)
    (hempty : screenQueue.items = []) :
    Fanning sink inputs (Bench.editing inputs screenQueue : Bench ρ α).floor [] [] where
  parts := fun c => by cases c <;> exact CoEditor.Forwarding.start _
  order := hempty.symm
  room := hroom
  link := by
    show Link 3 0 0 screenQueue.items
    rw [hempty]
    exact Link.empty 3
  screen := .inl rfl

theorem Fanning.taken_le (h : Fanning sink inputs f sent taken) :
    taken.countP Message.isDone ≤ Screen.sentinelsExpected :=
  Nat.le_trans h.link.received_le h.link.sent_le

/-- A co-editor takes a message. -/
theorem Fanning.take (h : Fanning sink inputs f sent taken)
    (hphase : (f.coEditors.get c).phase = .waiting)
    (hm : (f.categories.get c).remove? = some (m, r)) :
    Fanning sink inputs
      { f with
        categories := f.categories.set c r
        coEditors := f.coEditors.set c ((f.coEditors.get c).took m) } sent taken := by
  have hclosed := closedCoEditors_set f.coEditors c ((f.coEditors.get c).took m)
  rw [CoEditor.sent_eq_zero (e := f.coEditors.get c) (by simp [hphase]),
    CoEditor.sent_eq_zero (e := (f.coEditors.get c).took m) (by simp [CoEditor.took])] at hclosed
  refine { h with
    parts := fun d => ?_
    link := by
      rw [Nat.add_right_cancel hclosed]
      exact h.link }
  by_cases hdc : d = c
  · subst hdc
    have hpart := h.parts d
    rw [(Queue.items_remove? hm).1] at hpart
    simp only [ByCategory.get_set_self]
    exact hpart.took hphase
  · simp only [ByCategory.get_set_of_ne _ hdc]
    exact h.parts d

/-- A co-editor hands a message on. -/
theorem Fanning.forward (h : Fanning sink inputs f sent taken)
    (hphase : (f.coEditors.get c).phase = .holding m) (hr : f.screenQueue.insert? m = some r) :
    Fanning sink inputs
      { f with
        screenQueue := r
        coEditors := f.coEditors.set c ((f.coEditors.get c).handedOver m) }
      (sent ++ [(c, m)]) taken := by
  obtain ⟨hitems, hcapacity, -, -⟩ := Queue.items_insert? hr
  have hsent := CoEditor.sent_eq_zero (e := f.coEditors.get c) (by simp [hphase])
  have hopen : closedCoEditors f.coEditors < 3 := closedCoEditors_lt hsent
  have hclosed := closedCoEditors_set f.coEditors c ((f.coEditors.get c).handedOver m)
  rw [hsent, Nat.add_zero] at hclosed
  refine
    { parts := fun d => ?_
      order := by rw [List.map_append, h.order, List.append_assoc, hitems]; rfl
      room := by rw [hcapacity]; exact h.room
      link := ?_
      screen := h.screen }
  · rw [share_concat]
    by_cases hdc : d = c
    · subst hdc
      simp only [ByCategory.get_set_self, if_true]
      exact (h.parts d).handedOver hphase
    · simp only [ByCategory.get_set_of_ne _ hdc, if_neg (Ne.symm hdc), List.append_nil]
      exact h.parts d
  · rw [hclosed, hitems]
    cases m with
    | item body => exact h.link.insert_item hopen body
    | done => exact h.link.insert_done hopen

/-- The screen manager takes a message. -/
theorem Fanning.display (h : Fanning sink inputs f sent taken) (hsink : sink.NeverPanics)
    (hphase : f.screen.phase = .waiting) (hm : f.screenQueue.remove? = some (m, r))
    (events : List Event) :
    Fanning sink inputs
      { f with screenQueue := r, screen := (f.screen.took sink m).1, events } sent
      (taken ++ [m]) := by
  obtain ⟨hitems, hcapacity, -⟩ := Queue.items_remove? hm
  have hlink := h.link
  rw [hitems] at hlink
  refine
    { parts := h.parts
      order := by rw [h.order, hitems, List.append_assoc]; rfl
      room := by rw [hcapacity]; exact h.room
      link := ?_
      screen := h.screen.took hsink h.taken_le hphase m }
  rw [List.countP_append]
  cases m with
  | item body => exact hlink.remove_item
  | done => exact hlink.remove_done

/-- The screen manager shows its last line. -/
theorem Fanning.finish (h : Fanning sink inputs f sent taken) (hsink : sink.NeverPanics)
    (hphase : f.screen.phase = .closing) (events : List Event) :
    Fanning sink inputs { f with screen := (f.screen.close sink).1, events } sent taken :=
  { h with screen := h.screen.close hsink h.taken_le hphase }

variable [CategorySource ρ] [Payload α]

/-- Every step of the four stages keeps the floor in order. -/
theorem Fanning.step {a : Actor} (h : Fanning sink inputs f sent taken) (hsink : sink.NeverPanics)
    (ha : a ∈ Bench.editors) (hstep : Step sink f a f') :
    ∃ sent' taken', Fanning sink inputs f' sent' taken' := by
  cases hstep with
  | take hphase hm => exact ⟨_, _, h.take hphase hm⟩
  | forward hphase hr => exact ⟨_, _, h.forward hphase hr⟩
  | display hphase hm => exact ⟨_, _, h.display hsink hphase hm _⟩
  | finish hphase => exact ⟨_, _, h.finish hsink hphase _⟩
  | _ => simp [Bench.editors] at ha

/-! ### Progress -/

omit [CategorySource ρ] [Payload α] in
/-- All co-editors have finished once all marks were taken. -/
theorem Fanning.coEditors_finished (h : Fanning sink inputs f sent taken)
    (hall : taken.countP Message.isDone = Screen.sentinelsExpected) (c : Category) :
    (f.coEditors.get c).phase = .finished :=
  finished_of_link h.link hall c

omit [CategorySource ρ] [Payload α] in
/-- If marks are missing and nothing is on its way, some co-editor still has to hand its mark on. -/
theorem Fanning.exists_open (h : Fanning sink inputs f sent taken)
    (hmore : taken.countP Message.isDone < Screen.sentinelsExpected)
    (hempty : f.screenQueue.items = []) : ∃ c, (f.coEditors.get c).phase ≠ .finished := by
  by_contra hnone
  have hall : ∀ c, (f.coEditors.get c).phase = .finished := by simpa using hnone
  have hclosed : closedCoEditors f.coEditors = 3 := by
    simp [closedCoEditors, exactSum_toList, CoEditor.sent, hall]
  have hmarks := h.link.marks
  rw [hempty, hclosed] at hmarks
  rw [Screen.sentinelsExpected] at hmore
  simp at hmarks
  omega

/-- Until all four stages have finished one of them can take a step. -/
theorem Fanning.progress (h : Fanning sink inputs f sent taken) (hsink : sink.NeverPanics)
    (hmarks : ∀ c, .done ∈ (inputs.get c).items)
    (hopen : ∃ a ∈ Bench.editors, f.standing a ≠ .finished) :
    ∃ a ∈ Bench.editors, ∃ f', Step sink f a f' := by
  have hscreen : Actor.screen ∈ Bench.editors := List.mem_cons_self
  rcases h.screen.phase_cases hsink h.taken_le with
    ⟨hwaiting, hmore, -⟩ | ⟨hclosing, -⟩ | ⟨hfinished, hall, -⟩
  · by_cases hempty : f.screenQueue.items = []
    · obtain ⟨c, hc⟩ := h.exists_open hmore hempty
      refine ⟨.coEditor c, Bench.coEditor_mem_editors c, ?_⟩
      cases hphase : (f.coEditors.get c).phase with
      | waiting =>
          obtain ⟨m, r, hm⟩ := exists_remove? ((h.parts c).left_ne_nil hphase (hmarks c))
          exact ⟨_, .take hphase hm⟩
      | holding m =>
          obtain ⟨r, hr⟩ := exists_insert?_of_empty m hempty h.room
          exact ⟨_, .forward hphase hr⟩
      | finished => exact absurd hphase hc
    · obtain ⟨m, r, hm⟩ := exists_remove? hempty
      exact ⟨.screen, hscreen, _, .display hwaiting hm⟩
  · exact ⟨.screen, hscreen, _, .finish hclosing⟩
  · obtain ⟨a, ha, hne⟩ := hopen
    refine absurd ?_ hne
    rcases List.mem_cons.1 ha with rfl | ha
    · simp [standing, hfinished]
    · obtain ⟨c, -, rfl⟩ := List.mem_map.1 ha
      simp [standing, h.coEditors_finished hall c]

end Floor

/-! ### Outcomes -/

namespace Bench

variable [CategorySource ρ] [Payload α] {sink : Sink} {inputs : ByCategory (Queue (Message α))}
  {screenQueue : Queue (Message α)} {b : Bench ρ α} {sent : List (Category × Message α)}
  {taken : List (Message α)}

omit [CategorySource ρ] in
/-- What comes of the queues once the screen manager has finished. -/
theorem fannedIn_of_finished (h : b.floor.Fanning sink inputs sent taken)
    (hsink : sink.NeverPanics) (hphase : b.floor.screen.phase = .finished) :
    FannedIn inputs b := by
  rcases h.screen.phase_cases hsink h.taken_le with ⟨hother, -⟩ | ⟨hother, -⟩ | ⟨-, hall, hgiven⟩
  · cases hphase.symm.trans hother
  · cases hphase.symm.trans hother
  have hparts := fun c => (h.parts c).finished (h.coEditors_finished hall c)
  have hempty := h.link.eq_nil hall
  have hsent : sent.map Prod.snd = taken := by rw [h.order, hempty, List.append_nil]
  have hwoven := interleaves_bodies sent
  have hbodies : ∀ c, (share c sent).filterMap Message.body? =
      Message.beforeMark (inputs.get c).items := by
    intro c
    rw [(hparts c).1]
    simp [List.filterMap_append, List.filterMap_cons, List.filterMap_map, Function.comp_def]
  rw [hsent, funext hbodies] at hwoven
  refine
    { left := fun c => (hparts c).2.1
      forwarded := fun c => (hparts c).2.2
      shown := ⟨_, hwoven, hgiven, ?_⟩
      emptied := hempty }
  rw [hgiven]
  simp [Function.comp_def, Message.text, Message.doneText]

omit [CategorySource ρ] [Payload α] in
theorem work_editing (hempty : screenQueue.items = []) :
    (editing inputs screenQueue : Bench ρ α).work =
      4 * exactSum (inputs.map fun q => q.items.length).toList + 16 := by
  have hqueue : ∀ q : Queue (Message α), Floor.queueWork 4 4 q = 4 * q.items.length := fun q =>
    exactSum_map_const fun m _ => by cases m <;> rfl
  have hcategories : exactSum (inputs.map (Floor.queueWork 4 4)).toList =
      4 * exactSum (inputs.map fun q => q.items.length).toList := by
    simp only [exactSum_toList, ByCategory.get_map, hqueue]
    omega
  have hscreen : Floor.queueWork 2 2 screenQueue = 0 := by simp [Floor.queueWork, hempty]
  show 0 + 0 + (0 + 15) + exactSum (inputs.map (Floor.queueWork 4 4)).toList + 0 +
    Floor.queueWork 2 2 screenQueue + 1 =
      4 * exactSum (inputs.map fun q => q.items.length).toList + 16
  rw [hcategories, hscreen]
  omega

/-- Three co-editors with queues that nobody fills any more, each of which holds an end mark, and a
screen manager whose display does not panic, taking their steps in any order.  The number of steps
has a bound, and until all four have finished one of them can take a step.  In the end each queue is
left with what followed its first end mark, and the texts before were shown in an interleaving of
the three, with one last line after them. -/
theorem fans_in (hsink : sink.NeverPanics) (hroom : 0 < screenQueue.capacity)
    (hempty : screenQueue.items = []) (hmarks : ∀ c, .done ∈ (inputs.get c).items) :
    ∀ (ms : List Move) (b : Bench ρ α), (∀ m ∈ ms, m ∈ editors.map .act) →
      Schedule.run? (step? sink) (editing inputs screenQueue) ms = some b →
        ms.length ≤ 4 * exactSum (inputs.map fun q => q.items.length).toList + 16 ∧
        ((∃ a ∈ editors, b.floor.standing a ≠ .finished) →
          ∃ m ∈ editors.map .act, ∃ b', step? sink b m = some b') ∧
        ((∀ a ∈ editors, b.floor.standing a = .finished) → FannedIn inputs b) := by
  intro ms b hmoves hrun
  have hothers : ∀ m ∈ editors.map Move.act, m ≠ .act .dispatcher := by decide
  have hkeep : ∀ (b : Bench ρ α) m b', m ∈ editors.map Move.act →
      (∃ sent taken, b.floor.Fanning sink inputs sent taken) → step? sink b m = some b' →
        ∃ sent taken, b'.floor.Fanning sink inputs sent taken := by
    rintro b m b' hm ⟨sent, taken, h⟩ hstep
    obtain ⟨a, ha, rfl⟩ := List.mem_map.1 hm
    obtain ⟨f, hfloor, rfl⟩ := act_eq_some_iff.1 hstep
    exact h.step hsink ha hfloor
  obtain ⟨⟨sent, taken, h⟩, hbound⟩ :=
    runs_within hothers hkeep hmoves ⟨[], [], Floor.Fanning.start hroom hempty⟩ hrun
  rw [work_editing hempty] at hbound
  refine ⟨by omega, fun hopen => ?_, fun hall => ?_⟩
  · obtain ⟨a, ha, f, hfloor⟩ := h.progress hsink hmarks hopen
    exact ⟨.act a, List.mem_map_of_mem ha, _, act_eq_some_iff.2 ⟨f, hfloor, rfl⟩⟩
  · exact fannedIn_of_finished h hsink
      (Floor.phase_of_standing_screen (hall .screen List.mem_cons_self))

/-- Two of the queues hold messages after their first end mark, and the screen queue holds one
message at a time. -/
theorem fans_in_three :
    let inputs : ByCategory (Queue (Message String)) :=
      { sports := .filled "a" [.item "SPORTS 1", .done, .item "SPORTS 2"]
        news := .filled "b" [.done]
        weather := .filled "c" [.item "WEATHER 1", .done, .done] }
    ∃ (ms : List Move) (b : Bench Generator String),
      Schedule.run? (step? fun _ => .accept) (editing inputs (.filled "" [])) ms = some b ∧
        (∀ a ∈ editors, b.floor.standing a = .finished) ∧ FannedIn inputs b := by
  intro inputs
  let forwards : Category → List Move := fun c =>
    [.act (.coEditor c), .act (.coEditor c), .act .screen]
  let ms : List Move :=
    ([.sports, .weather, .sports, .news, .weather] : List Category).flatMap forwards ++
      [.act .screen]
  have hfinishes : (Schedule.run? (step? fun _ => .accept)
      (editing inputs (.filled "" []) : Bench Generator String) ms).map
        (fun b => editors.map b.floor.standing) = some (List.replicate 4 .finished) := by
    decide +kernel
  obtain ⟨b, hrun, hstanding⟩ := Option.map_eq_some_iff.1 hfinishes
  have hall : ∀ a ∈ editors, b.floor.standing a = .finished := by
    intro a ha
    exact List.eq_of_mem_replicate (hstanding ▸ List.mem_map_of_mem ha)
  have hfans := fans_in (fun _ h => by cases h)
    (by decide) rfl (fun c => by cases c <;> decide) ms b (by decide) hrun
  exact ⟨ms, b, hrun, hall, hfans.2.2 hall⟩

end Bench

end Newsroom
