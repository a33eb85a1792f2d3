import Newsroom.Proofs.Floor.Count
import Newsroom.Proofs.Launch.Regular
import Newsroom.Random.Generator

/-!
# Every article is delivered

In every state of a launch the articles of a producer on a category are on their way
in the order in which they were written, and when the launcher has returned the
display was given all of them.

## Main Statements

* `flowing_of_reachable`, `since_of_reachable`, `truthful_of_reachable` — the flow of
  articles, the draws of the producers and what was shown, in every state of every launch
* `seed_of_reachable` — the seed of the draws, which never changes
* `counted_of_reachable` — the counts of the stages, when every stage can be started
* `given_of_drained` — what was given to the display when nothing is left on the floor
* `articles_in_order` — no article is lost, doubled or overtaken, at any moment
-/

namespace Newsroom

/-- On a drained floor all messages of a trail were given to the display. -/
theorem Floor.Drained.trail_eq_given {ρ : Type} {f : Floor ρ Article} (h : f.Drained) (i : Nat)
    (c : Category) : f.trail i c = f.screen.given := by
  have hproducer : partAt Producer.held f.producers i = ([] : List (Message Article)) := by
    apply partAt_eq_nil
    intro q hq
    simp [Producer.held, Producer.held?, h.producers q hq]
  have hsource : partAt Queue.items f.sources i = [] := partAt_eq_nil h.sources i
  simp [Floor.trail, hproducer, hsource, h.screenQueue, h.categories, CoEditor.held, h.coEditors,
    Dispatcher.held, h.dispatcher]

namespace Launch

variable {ρ : Type} [SeededSource ρ] {c : Config} {o : Overrides} {randomSeed : UInt64}
  {p : Pipeline Article} {setup : Setup} {l : Launch ρ Article}

/-- The flow of articles in every state of a launch. -/
theorem flowing_of_reachable (hbuild : Pipeline.build c o randomSeed = .ok p)
    (hreach : Schedule.Reachable (step? setup) (ofPipeline p) l) : l.floor.Flowing :=
  floor_invariant (fun _ _ _ h hstep => h.step hstep) (fun _ es h => h.log es)
    (fun _ _ _ h hinsert => h.insert_done hinsert) hreach
    ((Pipeline.build_fresh hbuild).flowing.log _)

/-- The draws of the producers in every state of a launch. -/
theorem since_of_reachable (hbuild : Pipeline.build c o randomSeed = .ok p)
    (hreach : Schedule.Reachable (step? setup) (ofPipeline p) l) :
    (p.floor : Floor ρ Article).Since l.floor :=
  floor_invariant (fun _ _ _ h hstep => h.step hstep) (fun _ es h => h.log es)
    (fun _ _ _ h hinsert => h.insert hinsert) hreach ((Pipeline.build_fresh hbuild).since.log _)

/-- The floor of a launch keeps the seed of its pipeline. -/
theorem seed_of_reachable (hreach : Schedule.Reachable (step? setup) (ofPipeline p) l) :
    l.floor.seed = p.seed :=
  floor_invariant (P := fun f => f.seed = p.seed) (fun _ _ _ h hstep => hstep.seed.trans h)
    (fun _ _ h => h) (fun _ _ _ h hinsert => (Floor.seed_of_insert? hinsert).trans h) hreach rfl

/-- What the screen manager has shown, in every state of a launch. -/
theorem truthful_of_reachable (hbuild : Pipeline.build c o randomSeed = .ok p)
    (hreach : Schedule.Reachable (step? setup) (ofPipeline p) l) :
    l.floor.screen.Truthful setup.sink := by
  apply screen_invariant (P := fun s => s.Truthful setup.sink) ?_ hreach
  · show (p.floor : Floor ρ Article).screen.Truthful setup.sink
    rw [(Pipeline.build_fresh hbuild).screen]
    exact Screen.Truthful.start _
  · exact fun f a f' h hstep => hstep.truthful h

/-- What the producer at a place of the configuration has become. -/
theorem exists_producer (hbuild : Pipeline.build c o randomSeed = .ok p)
    (hreach : Schedule.Reachable (step? setup) (ofPipeline p) l) {i : Nat} {spec : ProducerSpec}
    (hspec : c.producers[i]? = some spec) :
    ∃ q, l.floor.producers[i]? = some q ∧
      Producer.Since (.ofSpec i spec (SeededSource.ofSeed (p.seed + UInt64.ofNat i))) q := by
  have hsince := since_of_reachable hbuild hreach
  have hproducer : (p.floor : Floor ρ Article).producers[i]? =
      some (.ofSpec i spec (SeededSource.ofSeed (p.seed + UInt64.ofNat i))) := by
    show (p.producers : List (Producer ρ))[i]? = _
    rw [Pipeline.producers_getElem?, Pipeline.producers_of_build hbuild, hspec]
    rfl
  obtain ⟨hi, -⟩ := List.getElem?_eq_some_iff.1 hproducer
  rw [← hsince.length] at hi
  obtain ⟨q₀, hq₀, hq⟩ := hsince.producer i _ (List.getElem?_eq_getElem hi)
  cases hproducer.symm.trans hq₀
  exact ⟨_, List.getElem?_eq_getElem hi, hq⟩

/-- The counts of the stages in every state of a launch in which every stage can be
started and the display does not panic. -/
theorem counted_of_reachable (hbuild : Pipeline.build c o randomSeed = .ok p)
    (hable : setup.failAt = none) (hsink : setup.sink.NeverPanics)
    (hreach : Schedule.Reachable (step? setup) (ofPipeline p) l) : l.floor.Counted setup.sink := by
  have hfresh := Pipeline.build_fresh (ρ := ρ) hbuild
  -- the flow is carried along, since the counts depend on it
  have hkept := regular_floor_invariant
    (P := fun f : Floor ρ Article => f.Flowing ∧ f.Counted setup.sink) hable hsink
    (fun f a f' horder h hstep => ⟨h.1.step hstep, h.2.step h.1 horder hstep⟩)
    (fun f es h => ⟨h.1.log es, h.2.log es⟩) (regular_ofPipeline hbuild) hreach
    ⟨hfresh.flowing.log _, (hfresh.counted _).log _⟩
  exact hkept.2

/-- When the launcher has returned, the last line was given once. -/
theorem countP_isDone_of_returned (hbuild : Pipeline.build c o randomSeed = .ok p)
    (hable : setup.failAt = none) (hsink : setup.sink.NeverPanics)
    (hreach : Schedule.Reachable (step? setup) (ofPipeline p) l)
    (hreturned : l.result?.isSome = true) : l.given.countP Message.isDone = 1 := by
  have hregular := regular_of_reachable hable hsink (regular_ofPipeline hbuild) hreach
  obtain ⟨-, -, hscreen⟩ := hregular.drained_of_returned hreturned
  have hdone := (counted_of_reachable hbuild hable hsink hreach).screen.finished hregular.awake
  rw [if_pos hscreen] at hdone
  exact hdone

/-- The way of an article from its producer to the display. -/
def wayOf (i : Nat) (d : Category) : List Move :=
  [.stage (.producer i), .stage (.producer i), .stage .dispatcher, .stage .dispatcher,
    .stage (.coEditor d), .stage (.coEditor d), .stage .screen]

/-- The way of the end marks from the category queues to the display, and the last line. -/
def lastWay : List Move :=
  Category.all.flatMap (fun d => [.stage (.coEditor d), .stage (.coEditor d), .stage .screen]) ++
    [.stage .screen]

/-- A run of the smallest newsroom from its start to its end. -/
def loneRun : List Move :=
  List.replicate 7 .launcher ++ wayOf 0 .sports ++ [.stage (.producer 0), .stage (.producer 0)] ++
    List.replicate 5 (.stage .dispatcher) ++ lastWay ++ List.replicate 7 .launcher

/-- The run is possible, also with a display that refuses every line, and the launcher
returns. -/
theorem exists_loneRun :
    ∃ l : Launch Generator Article, Schedule.run? (step? { sink := fun _ => .refuse .tryAgain })
      (ofPipeline Pipeline.lone) loneRun = some l ∧ l.result?.isSome = true := by
  have hreturned : ((Schedule.run? (step? { sink := fun _ => .refuse .tryAgain })
      (ofPipeline Pipeline.lone : Launch Generator Article) loneRun).any
        fun l => l.result?.isSome) = true := by
    decide +kernel
  exact (Option.any_eq_true _ _).1 hreturned

/-- When nothing is left on the floor, the display was given all articles of a
producer on a category, in order. -/
theorem given_of_drained (hbuild : Pipeline.build c o randomSeed = .ok p)
    (hreach : Schedule.Reachable (step? setup) (ofPipeline p) l) (hdrained : l.floor.Drained)
    {i : Nat} {spec : ProducerSpec} (hspec : c.producers[i]? = some spec) (d : Category) :
    articlesBy i d l.given =
      firstArticles i spec.id d ((Pipeline.drawn ρ p.seed i spec).get d) := by
  obtain ⟨q, hq, hsince⟩ := exists_producer hbuild hreach hspec
  have hfinished := hdrained.producers q (List.mem_of_getElem? hq)
  have hcomplete := (flowing_of_reachable hbuild hreach).complete i q d hq
  rw [← Floor.articlesBy_trail, hdrained.trail_eq_given, hsince.id,
    hsince.emitted_of_finished hfinished] at hcomplete
  exact hcomplete

/-- There are as many producers on the floor as in the configuration. -/
theorem length_producers (hbuild : Pipeline.build c o randomSeed = .ok p)
    (hreach : Schedule.Reachable (step? setup) (ofPipeline p) l) :
    l.floor.producers.length = c.producers.length := by
  have hstart : (p.floor : Floor ρ Article).producers = p.producers := rfl
  rw [(since_of_reachable hbuild hreach).length, hstart, Pipeline.length_producers,
    Pipeline.producers_of_build hbuild]

/-- The display is given articles of the configured producers only. -/
theorem origin_lt_of_given (hbuild : Pipeline.build c o randomSeed = .ok p)
    (hreach : Schedule.Reachable (step? setup) (ofPipeline p) l) {a : Article}
    (ha : .item a ∈ l.given) : a.origin < c.producers.length := by
  rw [← length_producers hbuild hreach]
  refine (flowing_of_reachable hbuild hreach).sorted.outbound a ?_
  rw [Floor.traffic, mem_bodies, List.mem_append]
  exact .inl ha

/-- At any moment the articles that a producer has written on a category are on their
way in the order in which they were written, none missing and none twice.  When the
launcher has returned, the display was given all of them and nothing else. -/
theorem articles_in_order (hbuild : Pipeline.build c o randomSeed = .ok p)
    (hreach : Schedule.Reachable (step? setup) (ofPipeline p) l) :
    (∀ (i : Nat) (spec : ProducerSpec), c.producers[i]? = some spec →
      ∃ q, l.floor.producers[i]? = some q ∧
        q.emitted = Tally.ofList (draws (spec.messages.toNat - q.remaining)
          (SeededSource.ofSeed (p.seed + UInt64.ofNat i) : ρ)) ∧
        ∀ d, articlesBy i d (l.floor.trail i d) = firstArticles i spec.id d (q.emitted.get d)) ∧
    (setup.failAt = none → setup.sink.NeverPanics → l.result?.isSome = true →
      (∀ (i : Nat) (spec : ProducerSpec), c.producers[i]? = some spec → ∀ d,
        articlesBy i d l.given =
          firstArticles i spec.id d ((Pipeline.drawn ρ p.seed i spec).get d)) ∧
      ∀ a, .item a ∈ l.given → a.origin < c.producers.length) := by
  constructor
  · intro i spec hspec
    obtain ⟨q, hq, hsince⟩ := exists_producer hbuild hreach hspec
    refine ⟨q, hq, hsince.emitted, ?_⟩
    intro d
    rw [Floor.articlesBy_trail, (flowing_of_reachable hbuild hreach).complete i q d hq, hsince.id]
    rfl
  · intro hable hsink hreturned
    have hregular := regular_of_reachable hable hsink (regular_ofPipeline hbuild) hreach
    obtain ⟨-, hdrained, -⟩ := hregular.drained_of_returned hreturned
    exact ⟨fun i spec hspec d => given_of_drained hbuild hreach hdrained hspec d,
      fun a ha => origin_lt_of_given hbuild hreach ha⟩

/-- The one article of the smallest newsroom is given to its display. -/
theorem articles_in_order_lone :
    ∃ l : Launch Generator Article, Schedule.run? (step? { sink := fun _ => .refuse .tryAgain })
      (ofPipeline Pipeline.lone) loneRun = some l ∧
        articlesBy 0 .sports l.given = [⟨0, 1, .sports, 0⟩] := by
  obtain ⟨l, hrun, hreturned⟩ := exists_loneRun
  have hreach := Schedule.reachable_run? .start hrun
  have hgiven := ((articles_in_order Pipeline.build_lone hreach).2 rfl (fun _ h => by cases h)
    hreturned).1 0 ⟨1, 1, 1⟩ rfl .sports
  have hdrawn : (Pipeline.drawn Generator Pipeline.lone.seed 0 ⟨1, 1, 1⟩).get .sports = 1 := by
    decide +kernel
  refine ⟨l, hrun, ?_⟩
  rw [hgiven, hdrawn]
  rfl

end Launch

end Newsroom
