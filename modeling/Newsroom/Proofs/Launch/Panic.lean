import Newsroom.Proofs.Launch.CleanUnwinding

/-!
# When a display panics

A display that panics on an article leaves the messages behind it where they are.  It can do
so only on one of its first calls, of which there are as many as the started producers have
articles to write.

## Main Statements

* `length_bodies_given_le` — no more articles are shown than the started producers write
* `alarmed_of_reachable` — the line on which the display has panicked, in every state of every
  launch
* `calm_of_lastLine` — a display that was given its last line has not panicked on an article
* `exists_panic_of_not_calm`, `calm_of_quiet` — an article makes a display panic only on a
  call that is early enough
-/

namespace Newsroom

/-- The articles of some producers, counted producer by producer. -/
theorem length_eq_exactSum {n : Nat} {as : List Article} (h : ∀ a ∈ as, a.origin < n) :
    as.length = exactSum ((List.range n).map fun i =>
      (as.filter (Article.isOf i .sports)).length + (as.filter (Article.isOf i .news)).length +
        (as.filter (Article.isOf i .weather)).length) := by
  rw [exactSum_map_add, exactSum_map_add, ← countP_category_eq h, ← countP_category_eq h,
    ← countP_category_eq h, ← length_eq_countP_category]

namespace Launch

variable {ρ : Type} [SeededSource ρ] {c : Config} {o : Overrides} {randomSeed : UInt64}
  {p : Pipeline Article} {setup : Setup} {l : Launch ρ Article}

/-! ### Articles that are shown -/

/-- No more articles of a producer and a category are shown than it has written. -/
theorem length_articlesBy_given_le (hbuild : Pipeline.build c o randomSeed = .ok p)
    (hreach : Schedule.Reachable (step? setup) (ofPipeline p) l) {i : Nat} {q : Producer ρ}
    (hq : l.floor.producers[i]? = some q) (d : Category) :
    (articlesBy i d l.given).length ≤ q.emitted.get d := by
  have hcomplete := (flowing_of_reachable hbuild hreach).complete i q d hq
  rw [← Floor.articlesBy_trail] at hcomplete
  have hlength := congrArg List.length hcomplete
  rw [length_firstArticles] at hlength
  -- what was given to the display stands at the head of every trail
  simp only [Floor.trail, articlesBy, bodies_append, List.filter_append, List.length_append,
    List.append_assoc] at hlength
  simp only [articlesBy, given]
  omega

/-- No more articles of a producer are shown than it was to write. -/
theorem sum_articlesBy_given_le (hbuild : Pipeline.build c o randomSeed = .ok p)
    (hreach : Schedule.Reachable (step? setup) (ofPipeline p) l) {i : Nat} {spec : ProducerSpec}
    (hspec : c.producers[i]? = some spec) :
    (articlesBy i .sports l.given).length + (articlesBy i .news l.given).length +
      (articlesBy i .weather l.given).length ≤ spec.messages.toNat := by
  obtain ⟨q, hq, hsince⟩ := exists_producer hbuild hreach hspec
  have hle := length_articlesBy_given_le hbuild hreach hq
  have hsports := hle .sports
  have hnews := hle .news
  have hweather := hle .weather
  have hsum : q.emitted.sum = spec.messages.toNat - q.remaining := by
    rw [hsince.emitted, Tally.sum_ofList, length_draws]
    rfl
  simp only [Tally.sum] at hsum
  simp only [ByCategory.get] at hsports hnews hweather
  omega

/-- No more articles are shown than the producers that were started are to write. -/
theorem length_bodies_given_le (hbuild : Pipeline.build c o randomSeed = .ok p)
    (hreach : Schedule.Reachable (step? setup) (ofPipeline p) l) :
    (bodies l.given).length ≤
      exactSum ((c.producers.take (l.started - 5)).map fun spec => spec.messages.toNat) := by
  have horigins : ∀ a ∈ bodies l.given, a.origin < (c.producers.take (l.started - 5)).length := by
    intro a ha
    have hgiven := mem_bodies.1 ha
    have hlt := origin_lt_of_given hbuild hreach hgiven
    have hrank := rank_lt_of_given hbuild hreach hgiven
    simp only [rank] at hrank
    rw [List.length_take]
    omega
  rw [length_eq_exactSum horigins, ← List.map_id (List.map _ (List.range _)),
    ← List.map_id (List.map _ (List.take _ _))]
  refine exactSum_map_le (by simp) fun i b b' hb hb' => ?_
  rw [List.getElem?_map, Option.map_eq_some_iff] at hb hb'
  obtain ⟨spec, hspec, rfl⟩ := hb
  obtain ⟨j, hj, rfl⟩ := hb'
  obtain ⟨hlt, hj⟩ := List.getElem?_eq_some_iff.1 hj
  rw [List.getElem_range] at hj
  subst hj
  rw [List.getElem?_take] at hspec
  split at hspec
  · exact sum_articlesBy_given_le hbuild hreach hspec
  · cases hspec

/-! ### The line of the panic -/

/-- The line on which the display has panicked, in every state of every launch. -/
theorem alarmed_of_reachable (hbuild : Pipeline.build c o randomSeed = .ok p)
    (hreach : Schedule.Reachable (step? setup) (ofPipeline p) l) :
    l.floor.screen.Alarmed setup.sink := by
  have hkept : l.floor.screen.Counting ∧ l.floor.screen.Alarmed setup.sink := by
    apply screen_invariant (P := fun s => s.Counting ∧ s.Alarmed setup.sink) ?_ hreach
    · show (p.floor : Floor ρ Article).screen.Counting ∧
        (p.floor : Floor ρ Article).screen.Alarmed setup.sink
      rw [(Pipeline.build_fresh hbuild).screen]
      exact ⟨by simp [Screen.Counting, Screen.sentinelsExpected], fun h => by cases h⟩
    · intro f a f' h hstep
      cases hstep with
      | display hphase hm => exact ⟨h.1.took hphase _ _, .took hphase _⟩
      | finish hphase => exact ⟨h.1.close hphase _, .close h.1 hphase⟩
      | _ => exact h
  exact hkept.2

/-- A display that was given its last line has not panicked on an article. -/
theorem calm_of_lastLine (hbuild : Pipeline.build c o randomSeed = .ok p)
    (hreach : Schedule.Reachable (step? setup) (ofPipeline p) l) (hlast : .done ∈ l.given) :
    l.floor.screen.Calm :=
  (truthful_of_reachable hbuild hreach).calm_of_last (alarmed_of_reachable hbuild hreach) hlast

/-- A display that has panicked on an article has done so on one of its first calls, before
its last line. -/
theorem exists_panic_of_not_calm (hbuild : Pipeline.build c o randomSeed = .ok p)
    (hreach : Schedule.Reachable (step? setup) (ofPipeline p) l) (hnot : ¬ l.floor.screen.Calm) :
    .done ∉ l.given ∧
      ∃ k, k < exactSum ((c.producers.take (l.started - 5)).map fun spec => spec.messages.toNat) ∧
        setup.sink k = .panic := by
  have hlast : .done ∉ l.given := fun hlast => hnot (calm_of_lastLine hbuild hreach hlast)
  refine ⟨hlast, ?_⟩
  obtain ⟨ms, m, hgiven, hverdict, -⟩ :=
    alarmed_of_reachable hbuild hreach (Screen.phase_of_not_calm hnot)
  have hlink := (truthful_of_reachable hbuild hreach).lastLine
  have hnone : l.given.countP Message.isDone = 0 :=
    Nat.eq_zero_of_not_pos fun hpos => hlast (hlink.done_mem_iff.2 hpos)
  -- all lines were articles, the one of the panic included
  have hlength : ms.length + 1 = (bodies l.given).length := by
    rw [← Nat.add_zero (bodies l.given).length, ← hnone, ← length_eq_bodies, given, hgiven]
    simp
  have hle := length_bodies_given_le hbuild hreach
  exact ⟨ms.length, by omega, hverdict⟩

/-- A display that does not panic on its first calls does not panic on an article. -/
theorem calm_of_quiet {n : Nat} (hbuild : Pipeline.build c o randomSeed = .ok p)
    (hreach : Schedule.Reachable (step? setup) (ofPipeline p) l)
    (hn : exactSum ((c.producers.take (l.started - 5)).map fun spec => spec.messages.toNat) ≤ n)
    (hquiet : ∀ k, k < n → setup.sink k ≠ .panic) : l.floor.screen.Calm := by
  refine Classical.byContradiction fun hnot => ?_
  obtain ⟨-, k, hk, hverdict⟩ := exists_panic_of_not_calm hbuild hreach hnot
  exact hquiet k (Nat.lt_of_lt_of_le hk hn) hverdict

end Launch

end Newsroom
