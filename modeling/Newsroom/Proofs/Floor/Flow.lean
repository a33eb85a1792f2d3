import Mathlib.Tactic.Convert
import Newsroom.Proofs.Classification
import Newsroom.Proofs.Floor.Order
import Newsroom.Proofs.Traffic

/-!
# The flow of articles

On the way from a producer to the display no article is lost, doubled or overtaken
by a later one of its kind.

## Main Definitions

* `Floor.trail` — all messages on the way of a kind of article, those that have come
  furthest first
* `Floor.traffic` — the articles of a floor at each stretch of the way
* `Floor.Flowing` — the trails hold the articles that were written, in their order
* `Floor.Carries` — what a step does to the articles

## Main Statements

* `Step.carries` — a step of a floor writes an article, passes one on, or leaves all
  of them where they are
* `Fresh.flowing`, `Flowing.step`, `Flowing.log`, `Flowing.insert_done` — the flow is
  kept by all that can happen on a floor

## Design Notes

Neither the display nor the capacities matter, and a floor that is being cleared
with additional end marks still keeps its articles.
-/

namespace Newsroom

/-- Writing gives the next article of its kind, or an end mark and no article. -/
theorem Producer.write_cases {ρ : Type} [CategorySource ρ] {p : Producer ρ}
    (hphase : p.phase = .writing) :
    (bodies p.held = [] ∧ bodies p.write.held = [] ∧ p.write.emitted = p.emitted) ∨
      ∃ c, bodies p.held = [] ∧ bodies p.write.held = [⟨p.origin, p.id, c, p.emitted.get c⟩] ∧
        p.write.emitted = p.emitted.bump c := by
  have hnone : bodies p.held = [] := by simp [held, held?, hphase]
  unfold write
  cases p.remaining with
  | zero => exact .inl ⟨hnone, rfl, rfl⟩
  | succ n => exact .inr ⟨_, hnone, rfl, rfl⟩

/-! ### Trails -/

namespace Floor

variable {ρ : Type} [CategorySource ρ]

/-- The messages on the way of the articles of a producer on a category. -/
def trail (f : Floor ρ Article) (i : Nat) (c : Category) : List (Message Article) :=
  f.screen.given ++ f.screenQueue.items ++ (f.coEditors.get c).held ++ (f.categories.get c).items ++
    f.dispatcher.held ++ partAt Queue.items f.sources i ++ partAt Producer.held f.producers i

/-- The articles of a floor at each stretch of their way. -/
def traffic (f : Floor ρ Article) : Traffic where
  inbound i := bodies (partAt Queue.items f.sources i ++ partAt Producer.held f.producers i)
  inHand := bodies f.dispatcher.held
  desk c := bodies ((f.coEditors.get c).held ++ (f.categories.get c).items)
  outbound := bodies (f.screen.given ++ f.screenQueue.items)

omit [CategorySource ρ] in
theorem articlesBy_trail (f : Floor ρ Article) (i : Nat) (c : Category) :
    articlesBy i c (f.trail i c) = f.traffic.trail i c := by
  simp [articlesBy, trail, traffic, Traffic.trail, List.append_assoc]

/-- Articles are where they belong, and in the order in which they were written. -/
structure Flowing (f : Floor ρ Article) : Prop where
  sources_length : f.sources.length = f.producers.length
  origins : ∀ (i : Nat) (p : Producer ρ), f.producers[i]? = some p → p.origin = i
  routed : ∀ (i : Nat) (c : Category) (a : Article),
    f.dispatcher.phase = .routing i c a → a.category = c
  sorted : f.traffic.Sorted f.producers.length
  complete : ∀ (i : Nat) (p : Producer ρ) (c : Category), f.producers[i]? = some p →
    f.traffic.trail i c = firstArticles i p.id c (p.emitted.get c)

/-! ### Steps -/

variable {sink : Sink} {f f' : Floor ρ Article}

/-- What a step of a stage does to the articles. -/
inductive Carries (f f' : Floor ρ Article) : Prop
  /-- A producer writes the next article of a category. -/
  | write (i : Nat) (p : Producer ρ) (c : Category) (hp : f.producers[i]? = some p)
      (hproducers : f'.producers = f.producers.set i p.write)
      (hemitted : p.write.emitted = p.emitted.bump c)
      (htraffic : f'.traffic = f.traffic.write i ⟨p.origin, p.id, c, p.emitted.get c⟩)
  /-- All articles stay where they are, or one passes on. -/
  | carry
      (hproducers : ∀ j : Nat, (f'.producers[j]?).map (fun p => (p.origin, p.id, p.emitted)) =
        (f.producers[j]?).map fun p => (p.origin, p.id, p.emitted))
      (htraffic : f'.traffic = f.traffic ∨ Traffic.Pass f.traffic f'.traffic)

omit [CategorySource ρ] in
/-- A producer that changes only in what it holds leaves what is known of the
producers. -/
private theorem kept_of_set {l : List (Producer ρ)} {i : Nat} {p p' : Producer ρ}
    (hp : l[i]? = some p) (hid : p'.id = p.id) (hemitted : p'.emitted = p.emitted)
    (horigin : p'.origin = p.origin) (j : Nat) :
    ((l.set i p')[j]?).map (fun p => (p.origin, p.id, p.emitted)) =
      (l[j]?).map fun p => (p.origin, p.id, p.emitted) := by
  rw [getElem?_set_of_some hp]
  split
  · next hji => simp [hji, hp, hid, hemitted, horigin]
  · rfl

omit [CategorySource ρ] in
/-- The articles inbound when some messages were removed from a source. -/
private theorem inbound_remove {f : Floor ρ Article} {i : Nat} {q r : Queue (Message Article)}
    {m : Message Article} (hq : f.sources[i]? = some q) (hm : q.remove? = some (m, r)) :
    f.traffic.inbound i = bodies [m] ++ bodies (r.items ++ partAt Producer.held f.producers i) ∧
      ∀ j, bodies (partAt Queue.items (f.sources.set i r) j ++ partAt Producer.held f.producers j) =
        if j = i then bodies (r.items ++ partAt Producer.held f.producers i)
        else f.traffic.inbound j := by
  obtain ⟨hitems, -⟩ := Queue.items_remove? hm
  constructor
  · simp only [traffic, partAt_of_some hq, hitems]
    rw [← bodies_append]
    rfl
  · intro j
    rw [partAt_set _ hq]
    split
    · next hji => rw [hji]
    · rfl

private theorem carries_producer {i : Nat} (hstep : Step sink f (.producer i) f') :
    Carries f f' := by
  cases hstep with
  | @write _ p hp hphase =>
      obtain ⟨hid, horigin⟩ := p.write_kept
      have hset := partAt_set (Producer.held (α := Article)) hp p.write
      have hinbound : f.traffic.inbound i =
          bodies (partAt Queue.items f.sources i) ++ bodies p.held := by
        simp [traffic, partAt_of_some hp]
      rcases Producer.write_cases hphase with
        ⟨hheld, hheld', hemitted⟩ | ⟨c, hheld, hheld', hemitted⟩
      · refine .carry (kept_of_set hp hid hemitted horigin) (.inl ?_)
        refine Traffic.ext (funext fun j => ?_) rfl rfl rfl
        simp only [traffic, hset, bodies_append]
        split
        · next hji => rw [hji, partAt_of_some hp, hheld, hheld']
        · rfl
      · refine .write i p c hp rfl hemitted ?_
        refine Traffic.ext (funext fun j => ?_) rfl rfl rfl
        simp only [traffic, Traffic.write, hset, bodies_append]
        split
        · next hji => simp [hji, partAt_of_some hp, hheld, hheld']
        · rfl
  | @handOver _ p m q r hp hheld hq hroom =>
      obtain ⟨hid, hemitted, horigin⟩ := p.handedOver_kept
      obtain ⟨hitems, -⟩ := Queue.items_insert? hroom
      obtain ⟨hbefore, hafter⟩ := Producer.held_handedOver hheld
      refine .carry (kept_of_set hp hid hemitted horigin) (.inl ?_)
      refine Traffic.ext (funext fun j => ?_) rfl rfl rfl
      simp only [traffic, partAt_set _ hp, partAt_set _ hq]
      split
      · next hji => simp [hji, partAt_of_some hp, partAt_of_some hq, hitems, hbefore, hafter]
      · rfl

private theorem carries_dispatcher (h : f.Flowing) (hstep : Step sink f .dispatcher f') :
    Carries f f' := by
  refine .carry (fun _ => by cases hstep <;> rfl) ?_
  cases hstep with
  | @miss i q hphase hq hempty =>
      have hbefore : f.dispatcher.held = [] := by simp [Dispatcher.held, hphase]
      have hafter : (f.dispatcher.afterPoll i).held = [] := (Dispatcher.held_sent_afterPoll _ _).1
      refine .inl (Traffic.ext rfl ?_ rfl rfl)
      simp only [traffic, hbefore, hafter]
  | @takeDone i q r hphase hq hm =>
      obtain ⟨hbefore, hafter⟩ := inbound_remove hq hm
      have hnone : f.dispatcher.held = [] := by simp [Dispatcher.held, hphase]
      have hnone' : ((f.dispatcher.receiveDone i).afterPoll i).held = [] :=
        (Dispatcher.held_sent_afterPoll _ _).1
      refine .inl (Traffic.ext (funext fun j => (hafter j).trans ?_) ?_ rfl rfl)
      · split
        · next hji =>
          rw [hji, hbefore]
          rfl
        · rfl
      · simp only [traffic, hnone, hnone']
  | @takeItem i q r a c hphase hq hm hc =>
      obtain ⟨hbefore, hafter⟩ := inbound_remove hq hm
      refine .inr ?_
      have hpass := Traffic.Pass.accept i a _ hbefore
      convert hpass using 1
      refine Traffic.ext (funext hafter) ?_ rfl rfl
      simp [traffic, Dispatcher.held, hphase]
  | @drop i q r a hphase hq hm hc =>
      have hclassify := a.classify_text
      rw [show Payload.text a = a.text from rfl, hclassify] at hc
      cases hc
  | @route i c a r hphase hroom =>
      obtain ⟨hitems, -⟩ := Queue.items_insert? hroom
      have hheld : ((f.dispatcher.bumpRouted c).afterPoll i).held = [] :=
        (Dispatcher.held_sent_afterPoll _ _).1
      have hcategory := h.routed i c a hphase
      have hhand : f.traffic.inHand = [a] := by simp [traffic, Dispatcher.held, hphase]
      refine .inr ?_
      have hpass := Traffic.Pass.file a [] hhand
      convert hpass using 1
      refine Traffic.ext rfl ?_ (funext fun d => ?_) rfl
      · simp [traffic, hheld]
      · simp only [traffic, ByCategory.get_set, hcategory]
        split
        · next hdc => simp [hdc, hitems, List.append_assoc]
        · rfl
  | @check i q hphase hq =>
      have hbefore : f.dispatcher.held = [] := by simp [Dispatcher.held, hphase]
      have hafter : (f.dispatcher.checked i q.isEmpty).held = [] :=
        (Dispatcher.held_sent_of_scan (i := i + 1) rfl).1
      refine .inl (Traffic.ext rfl ?_ rfl rfl)
      simp only [traffic, hbefore, hafter]
  | @close c cs r hphase hroom =>
      obtain ⟨hitems, -⟩ := Queue.items_insert? hroom
      have hbefore : f.dispatcher.held = [] := by simp [Dispatcher.held, hphase]
      refine .inl (Traffic.ext rfl ?_ (funext fun d => ?_) rfl)
      · simp only [traffic, hbefore, Dispatcher.held_closed]
      · simp only [traffic, ByCategory.get_set]
        split
        · next hdc => simp [hdc, hitems]
        · rfl

private theorem carries_coEditor {c : Category} (hstep : Step sink f (.coEditor c) f') :
    Carries f f' := by
  refine .carry (fun _ => by cases hstep <;> rfl) ?_
  cases hstep with
  | @take _ m r hphase hm =>
      obtain ⟨hitems, -⟩ := Queue.items_remove? hm
      refine .inl (Traffic.ext rfl rfl (funext fun d => ?_) rfl)
      simp only [traffic, ByCategory.get_set]
      split
      · next hdc => simp [hdc, hitems, CoEditor.held, CoEditor.took, hphase]
      · rfl
  | @forward _ m r hphase hroom =>
      obtain ⟨hitems, -⟩ := Queue.items_insert? hroom
      obtain ⟨hheld, hheld'⟩ := CoEditor.held_handedOver _ hphase
      have hdesk : ∀ d,
          bodies (((f.coEditors.set c ((f.coEditors.get c).handedOver m)).get d).held ++
            (f.categories.get d).items) =
          if d = c then bodies (f.categories.get c).items else f.traffic.desk d := by
        intro d
        rw [ByCategory.get_set]
        split
        · next hdc => simp [hdc, hheld']
        · rfl
      cases m with
      | done =>
          refine .inl (Traffic.ext rfl rfl (funext fun d => (hdesk d).trans ?_) ?_)
          · split
            · next hdc => simp [traffic, hdc, hheld]
            · rfl
          · simp [traffic, hitems]
      | item a =>
          have hahead : f.traffic.desk c = a :: bodies (f.categories.get c).items := by
            simp [traffic, hheld]
          have hpass := Traffic.Pass.release c a _ hahead
          refine .inr ?_
          convert hpass using 1
          refine Traffic.ext rfl rfl (funext hdesk) ?_
          simp [traffic, hitems, List.append_assoc]

private theorem carries_screen (hstep : Step sink f .screen f') : Carries f f' := by
  refine .carry (fun _ => by cases hstep <;> rfl) (.inl ?_)
  cases hstep with
  | @display m r hphase hm =>
      obtain ⟨hitems, -⟩ := Queue.items_remove? hm
      refine Traffic.ext rfl rfl rfl ?_
      cases m with
      | done => simp [traffic, hitems, Screen.took_done_fst]
      | item a => simp [traffic, hitems, Screen.took_item_fst sink _ hphase, List.append_assoc]
  | finish hphase =>
      refine Traffic.ext rfl rfl rfl ?_
      simp [traffic, Screen.close_fst sink _ hphase]

/-- A step of a stage writes an article or carries the articles on. -/
theorem Step.carries {a : Actor} (h : f.Flowing) (hstep : Step sink f a f') : Carries f f' := by
  cases a with
  | screen => exact carries_screen hstep
  | coEditor c => exact carries_coEditor hstep
  | dispatcher => exact carries_dispatcher h hstep
  | producer i => exact carries_producer hstep

/-- What the dispatcher holds is filed under the category of the article. -/
private theorem Flowing.routed_step {a : Actor} (h : f.Flowing) (hstep : Step sink f a f')
    {i : Nat} {c : Category} {b : Article} (hphase' : f'.dispatcher.phase = .routing i c b) :
    b.category = c := by
  have hheld : f'.dispatcher.held = [.item b] := by simp [Dispatcher.held, hphase']
  cases hstep with
  | write hp hphase => exact h.routed i c b hphase'
  | handOver hp hheld hq hroom => exact h.routed i c b hphase'
  | takeItem hphase hq hm hc =>
      cases hphase'
      exact Option.some.inj (b.classify_text.symm.trans hc)
  | miss hphase hq hempty => simp [(Dispatcher.held_sent_afterPoll _ _).1] at hheld
  | takeDone hphase hq hm => simp [(Dispatcher.held_sent_afterPoll _ _).1] at hheld
  | drop hphase hq hm hc => simp [(Dispatcher.held_sent_afterPoll _ _).1] at hheld
  | route hphase hroom => simp [(Dispatcher.held_sent_afterPoll _ _).1] at hheld
  | @check i q hphase hq =>
      rw [(Dispatcher.held_sent_of_scan (d := f.dispatcher.checked i q.isEmpty) (i := i + 1) rfl).1]
        at hheld
      cases hheld
  | close hphase hroom => simp [Dispatcher.held_closed] at hheld
  | take hphase hm => exact h.routed i c b hphase'
  | forward hphase hroom => exact h.routed i c b hphase'
  | display hphase hm => exact h.routed i c b hphase'
  | finish hphase => exact h.routed i c b hphase'

/-- The flow is kept by every step. -/
theorem Flowing.step {a : Actor} (h : f.Flowing) (hstep : Step sink f a f') : f'.Flowing := by
  obtain ⟨hproducers_length, hsources_length⟩ := hstep.lengths
  have hlengths : f'.sources.length = f'.producers.length := by
    rw [hproducers_length, hsources_length, h.sources_length]
  have hrouted : ∀ i c b, f'.dispatcher.phase = .routing i c b → b.category = c :=
    fun i c b => h.routed_step hstep
  cases hstep.carries h with
  | write i p c hp hproducers hemitted htraffic =>
      obtain ⟨hid, horigin⟩ := p.write_kept
      have hi := h.origins i p hp
      obtain ⟨hlt, -⟩ := List.getElem?_eq_some_iff.1 hp
      -- the new article ends its own trail and is on no other
      refine ⟨hlengths, ?_, hrouted, ?_, ?_⟩
      · intro j p' hp'
        rw [hproducers, getElem?_set_of_some hp] at hp'
        split at hp'
        · next hji =>
          cases hp'
          rw [horigin, hi, hji]
        · exact h.origins j p' hp'
      · rw [htraffic, hproducers_length]
        exact h.sorted.write hlt hi
      · intro j p' d hp'
        rw [htraffic, Traffic.trail_write _ hi]
        rw [hproducers, getElem?_set_of_some hp] at hp'
        split at hp'
        · next hji =>
          cases hp'
          rw [hji, h.complete i p d hp, hid, hemitted, Tally.get_bump]
          by_cases hdc : d = c
          · simp [hdc, Article.isOf, hi, firstArticles_succ]
          · simp [hdc, Article.isOf, Ne.symm hdc]
        · next hji =>
          rw [h.complete j p' d hp']
          simp [Article.isOf, hi, Ne.symm hji]
  | carry hproducers htraffic =>
      -- no article is new, so that no trail and no count of a producer changes
      have hkept : ∀ (j : Nat) (p' : Producer ρ), f'.producers[j]? = some p' →
          ∃ p, f.producers[j]? = some p ∧ p.origin = p'.origin ∧ p.id = p'.id ∧
            p.emitted = p'.emitted := by
        intro j p' hp'
        have hsame := hproducers j
        rw [hp', Option.map_some, eq_comm, Option.map_eq_some_iff] at hsame
        obtain ⟨p, hp, heq⟩ := hsame
        simp only [Prod.mk.injEq] at heq
        exact ⟨p, hp, heq⟩
      have hsorted : f'.traffic.Sorted f'.producers.length := by
        rw [hproducers_length]
        rcases htraffic with hsame | hpass
        · rw [hsame]
          exact h.sorted
        · exact hpass.sorted h.sorted
      have htrail : ∀ j d, f'.traffic.trail j d = f.traffic.trail j d := by
        intro j d
        rcases htraffic with hsame | hpass
        · rw [hsame]
        · exact hpass.trail_eq h.sorted j d
      refine ⟨hlengths, ?_, hrouted, hsorted, ?_⟩
      · intro j p' hp'
        obtain ⟨p, hp, horigin, -⟩ := hkept j p' hp'
        rw [← horigin]
        exact h.origins j p hp
      · intro j p' d hp'
        obtain ⟨p, hp, -, hid, hemitted⟩ := hkept j p' hp'
        rw [htrail, h.complete j p d hp, hid, hemitted]

omit [CategorySource ρ]

/-- Reports do not disturb the flow. -/
theorem Flowing.log (h : f.Flowing) (es : List Event) : (f.log es).Flowing :=
  { h with }

/-- The floor with another queue that holds the same articles. -/
private theorem Flowing.setQueue (h : f.Flowing) {p : Place} {q : Queue (Message Article)}
    (hsame : (f.setQueue p q).traffic = f.traffic) : (f.setQueue p q).Flowing := by
  cases p with
  | source i =>
      exact
        { h with
          sources_length := by simpa [Floor.setQueue] using h.sources_length
          sorted := hsame ▸ h.sorted
          complete := fun j p d hp => hsame ▸ h.complete j p d hp }
  | category c =>
      exact { h with
        sorted := hsame ▸ h.sorted
        complete := fun j p d hp => hsame ▸ h.complete j p d hp }
  | screen =>
      exact { h with
        sorted := hsame ▸ h.sorted
        complete := fun j p d hp => hsame ▸ h.complete j p d hp }

/-- An end mark that is put into a queue does not disturb the flow. -/
theorem Flowing.insert_done (h : f.Flowing) {p : Place} (hinsert : f.insert? p .done = some f') :
    f'.Flowing := by
  obtain ⟨q, r, hq, hroom, rfl⟩ := insert?_eq_some_iff.1 hinsert
  obtain ⟨hitems, -⟩ := Queue.items_insert? hroom
  refine h.setQueue ?_
  cases p with
  | source i =>
      have hq' : f.sources[i]? = some q := hq
      refine Traffic.ext (funext fun j => ?_) rfl rfl rfl
      simp only [Floor.setQueue, traffic, partAt_set _ hq']
      split
      · next hji => simp [hji, partAt_of_some hq', hitems]
      · rfl
  | category c =>
      cases hq
      refine Traffic.ext rfl rfl (funext fun d => ?_) rfl
      simp only [Floor.setQueue, traffic, ByCategory.get_set]
      split
      · next hdc => simp [hdc, hitems]
      · rfl
  | screen =>
      cases hq
      refine Traffic.ext rfl rfl rfl ?_
      simp [Floor.setQueue, traffic, hitems]

/-- A floor on which nothing has happened is in flow. -/
theorem Fresh.flowing (h : f.Fresh) : f.Flowing := by
  have hscan := Dispatcher.phase_start (α := Article) f.producers.length
  have hheld : f.dispatcher.held = [] := by
    rw [h.dispatcher]
    exact (Dispatcher.held_sent_of_scan hscan).1
  have hinbound : ∀ i, f.traffic.inbound i = [] := by
    intro i
    have hqueue : partAt Queue.items f.sources i = [] :=
      partAt_eq_nil (fun q hq => (h.sources q hq).1) i
    have hproducer : partAt Producer.held f.producers i = ([] : List (Message Article)) := by
      apply partAt_eq_nil
      intro p hp
      obtain ⟨j, hj⟩ := List.getElem?_of_mem hp
      simp [Producer.held, Producer.held?, (h.producers j p hj).2.1]
    simp [traffic, hqueue, hproducer]
  have hinHand : f.traffic.inHand = [] := by simp [traffic, hheld]
  have hdesk : ∀ c, f.traffic.desk c = [] := by
    intro c
    simp [traffic, h.coEditors, (h.categories c).1, CoEditor.held]
  have houtbound : f.traffic.outbound = [] := by simp [traffic, h.screen, h.screenQueue.1]
  exact
    { sources_length := h.sources_length
      origins := fun i p hp => (h.producers i p hp).1
      routed := fun i c a hphase => by
        simp [Dispatcher.held, hphase] at hheld
      sorted := by constructor <;> simp [hinbound, hinHand, hdesk, houtbound]
      complete := fun i p c hp => by
        simp [Traffic.trail, hinbound, hinHand, hdesk, houtbound, (h.producers i p hp).2.2,
          firstArticles] }

end Floor

end Newsroom
