import Newsroom.Proofs.Conservation
import Newsroom.Proofs.Launch.Delivery

/-!
# The outcome of a launch

The report of a launch that has returned is known beforehand: it follows from the
numbers and the articles of the producers, and from the seed.

## Main Definitions

* `Pipeline.written` — what the producers report
* `Pipeline.outcome` — the report of every launch in which every stage can be started
  and the display does not panic

## Main Statements

* `result?_eq_outcome` — the launcher returns no other report
* `report_of_seed` — the report in detail, and what two launches of the same producers
  with the same seed have in common
-/

namespace Newsroom

namespace Pipeline

variable (ρ : Type) [SeededSource ρ]

/-- What the producers of a configuration report, whatever happens on the floor. -/
def written (seed : UInt64) (specs : List ProducerSpec) : List Producer.Report :=
  specs.zipIdx.map fun e => ⟨e.1.id, drawn ρ seed e.2 e.1⟩

/-- How many articles there are of each category, of all producers. -/
def totals (seed : UInt64) (specs : List ProducerSpec) : Tally :=
  Tally.sumOf ((written ρ seed specs).map Producer.Report.emitted)

/-- The report of a launch of some producers with a seed. -/
def outcome (seed : UInt64) (specs : List ProducerSpec) (sink : Sink) : Report where
  seed
  produced := written ρ seed specs
  dispatch :=
    { routed := totals ρ seed specs
      dropped := 0
      sentinelsReceived := specs.length
      sentinelsSent := 3 }
  edited := totals ρ seed specs
  screen :=
    { displayed := (totals ρ seed specs).sum
      sentinelsReceived := 3
      writeErrors := sink.refusals ((totals ρ seed specs).sum + 1) }

theorem getElem?_written (seed : UInt64) (specs : List ProducerSpec) (i : Nat) :
    (written ρ seed specs)[i]? = specs[i]?.map fun spec => ⟨spec.id, drawn ρ seed i spec⟩ := by
  rw [written, List.getElem?_map, List.getElem?_zipIdx]
  cases specs[i]? with
  | none => rfl
  | some spec => simp

/-- A producer draws as often as it has articles to write. -/
theorem sum_drawn (seed : UInt64) (i : Nat) (spec : ProducerSpec) :
    (drawn ρ seed i spec).sum = spec.messages.toNat := by
  rw [drawn, Tally.sum_ofList, length_draws]

/-- The articles of all producers, as many as are configured. -/
theorem exactSum_written (seed : UInt64) (specs : List ProducerSpec) :
    exactSum ((written ρ seed specs).map fun q => q.emitted.sum) =
      exactSum (specs.map fun spec => spec.messages.toNat) := by
  congr 1
  apply List.ext_getElem?
  intro i
  rw [List.getElem?_map, getElem?_written, List.getElem?_map]
  cases specs[i]? with
  | none => rfl
  | some spec => exact congrArg some (sum_drawn ρ seed i spec)

theorem get_totals (seed : UInt64) (specs : List ProducerSpec) (d : Category) :
    (totals ρ seed specs).get d =
      exactSum ((written ρ seed specs).map fun q => q.emitted.get d) := by
  rw [totals, Tally.get_sumOf, List.map_map]
  rfl

/-- There are as many articles in all as are configured. -/
theorem sum_totals (seed : UInt64) (specs : List ProducerSpec) :
    (totals ρ seed specs).sum = exactSum (specs.map fun spec => spec.messages.toNat) := by
  rw [← exactSum_written ρ seed, totals, Tally.sum_sumOf, List.map_map]
  rfl

end Pipeline

namespace Launch

variable {ρ : Type} [SeededSource ρ] {c : Config} {o : Overrides} {randomSeed : UInt64}
  {p : Pipeline Article} {setup : Setup} {l : Launch ρ Article}

/-- The producers report what is known beforehand. -/
theorem produced_of_drained (hbuild : Pipeline.build c o randomSeed = .ok p)
    (hreach : Schedule.Reachable (step? setup) (ofPipeline p) l) (hdrained : l.floor.Drained) :
    l.floor.producers.map Producer.report = Pipeline.written ρ p.seed c.producers := by
  apply List.ext_getElem?
  intro i
  rw [List.getElem?_map, Pipeline.getElem?_written]
  cases hspec : c.producers[i]? with
  | none =>
      rw [List.getElem?_eq_none_iff, ← length_producers hbuild hreach] at hspec
      rw [List.getElem?_eq_none_iff.2 hspec]
      rfl
  | some spec =>
      obtain ⟨q, hq, hsince⟩ := exists_producer hbuild hreach hspec
      have hfinished := hdrained.producers q (List.mem_of_getElem? hq)
      have hid := hsince.id
      have hemitted := hsince.emitted_of_finished hfinished
      rw [hq]
      simp only [Option.map_some, Producer.report, hid, hemitted]
      rfl

/-- The articles of a category that the display was given are those that the producers
report. -/
theorem countP_given_of_drained (hbuild : Pipeline.build c o randomSeed = .ok p)
    (hreach : Schedule.Reachable (step? setup) (ofPipeline p) l) (hdrained : l.floor.Drained)
    (d : Category) :
    (bodies l.given).countP (fun a => a.category = d) =
      (Pipeline.totals ρ p.seed c.producers).get d := by
  have hknown : ∀ a ∈ bodies l.given, a.origin < c.producers.length := by
    intro a ha
    exact origin_lt_of_given hbuild hreach (mem_bodies.1 ha)
  rw [countP_category_eq hknown, Pipeline.get_totals]
  congr 1
  apply List.ext_getElem?
  intro i
  rw [List.getElem?_map, List.getElem?_map, Pipeline.getElem?_written]
  cases hspec : c.producers[i]? with
  | none =>
      have hle := List.getElem?_eq_none_iff.1 hspec
      rw [List.getElem?_eq_none_iff.2 (by simpa using hle)]
      rfl
  | some spec =>
      obtain ⟨hi, -⟩ := List.getElem?_eq_some_iff.1 hspec
      have hgiven := given_of_drained hbuild hreach hdrained hspec d
      have hlength : ((bodies l.given).filter (Article.isOf i d)).length =
          (Pipeline.drawn ρ p.seed i spec).get d :=
        (congrArg List.length hgiven).trans (length_firstArticles _ _ _ _)
      rw [List.getElem?_range hi]
      exact congrArg some hlength

/-- When nothing is left on the floor, the co-editors have forwarded all articles. -/
theorem forwarded_of_drained (hbuild : Pipeline.build c o randomSeed = .ok p)
    (hreach : Schedule.Reachable (step? setup) (ofPipeline p) l) (hdrained : l.floor.Drained)
    (hcounted : l.floor.Counted setup.sink) (d : Category) :
    (l.floor.coEditors.get d).forwarded = (Pipeline.totals ρ p.seed c.producers).get d := by
  have houtbound : l.floor.traffic.outbound = bodies l.given := by
    rw [Floor.traffic, hdrained.screenQueue, List.append_nil]
    rfl
  rw [hcounted.forwarded, houtbound, countP_given_of_drained hbuild hreach hdrained]

/-- When nothing is left on the floor, the display was given all articles. -/
theorem length_bodies_of_drained (hbuild : Pipeline.build c o randomSeed = .ok p)
    (hreach : Schedule.Reachable (step? setup) (ofPipeline p) l) (hdrained : l.floor.Drained) :
    (bodies l.given).length = (Pipeline.totals ρ p.seed c.producers).sum := by
  have hcount := countP_given_of_drained hbuild hreach hdrained
  rw [length_eq_countP_category, hcount, hcount, hcount]
  rfl

/-- What the dispatcher has counted when nothing is left on the floor. -/
theorem dispatch_of_drained (hbuild : Pipeline.build c o randomSeed = .ok p)
    (hreach : Schedule.Reachable (step? setup) (ofPipeline p) l) (horderly : l.floor.Orderly)
    (hdrained : l.floor.Drained) (hcounted : l.floor.Counted setup.sink) :
    l.floor.dispatcher.report = (Pipeline.outcome ρ p.seed c.producers setup.sink).dispatch := by
  have hrouted : l.floor.dispatcher.report.routed = Pipeline.totals ρ p.seed c.producers := by
    apply ByCategory.ext_get
    intro d
    have hdesk : l.floor.traffic.desk d = [] := by
      simp [Floor.traffic, CoEditor.held, hdrained.coEditors, hdrained.categories]
    rw [hcounted.routed, hdesk, forwarded_of_drained hbuild hreach hdrained hcounted]
    rfl
  have hreceived : l.floor.dispatcher.report.sentinelsReceived = c.producers.length := by
    have hall : ∀ s ∈ l.floor.dispatcher.sources, s.received = 1 := by
      intro s hs
      rw [hdrained.statuses s hs]
      rfl
    rw [hcounted.dispatcher.received, exactSum_map_const hall, horderly.statuses_length,
      length_producers hbuild hreach, Nat.one_mul]
  have hsent : l.floor.dispatcher.report.sentinelsSent = 3 := by
    rw [hcounted.dispatcher.sent]
    simp [Dispatcher.sent, hdrained.dispatcher]
  calc l.floor.dispatcher.report
      = ⟨l.floor.dispatcher.report.routed, l.floor.dispatcher.report.dropped,
          l.floor.dispatcher.report.sentinelsReceived,
          l.floor.dispatcher.report.sentinelsSent⟩ := rfl
    _ = ⟨Pipeline.totals ρ p.seed c.producers, 0, c.producers.length, 3⟩ := by
        rw [hrouted, hcounted.dispatcher.dropped, hreceived, hsent]

/-- The launcher returns the report that is known beforehand, and the display was
given one more line than there are articles. -/
theorem result?_eq_outcome (hbuild : Pipeline.build c o randomSeed = .ok p)
    (hable : setup.failAt = none) (hsink : setup.sink.NeverPanics)
    (hreach : Schedule.Reachable (step? setup) (ofPipeline p) l)
    (hreturned : l.result?.isSome = true) :
    l.result? = some (.ok (Pipeline.outcome ρ p.seed c.producers setup.sink)) ∧
      l.given.length = (Pipeline.totals ρ p.seed c.producers).sum + 1 := by
  have hregular := regular_of_reachable hable hsink (regular_ofPipeline hbuild) hreach
  have hcounted := counted_of_reachable hbuild hable hsink hreach
  obtain ⟨hphase, hdrained, hscreen⟩ := hregular.drained_of_returned hreturned
  have hbodies := length_bodies_of_drained hbuild hreach hdrained
  have hlines : l.given.length = (Pipeline.totals ρ p.seed c.producers).sum + 1 := by
    rw [length_eq_bodies, hbodies, countP_isDone_of_returned hbuild hable hsink hreach hreturned]
  refine ⟨?_, hlines⟩
  have hedited :
      l.floor.coEditors.map CoEditor.forwarded = Pipeline.totals ρ p.seed c.producers := by
    apply ByCategory.ext_get
    intro d
    rw [ByCategory.get_map, forwarded_of_drained hbuild hreach hdrained hcounted]
  have hdispatch := dispatch_of_drained hbuild hreach hregular.orderly hdrained hcounted
  have hreceived : l.floor.screen.report.sentinelsReceived = 3 := by
    have hcounting := hregular.orderly.counting
    simpa only [Screen.Counting, hscreen, Screen.sentinelsExpected] using hcounting
  have hdisplayed : l.floor.screen.report.displayed = (Pipeline.totals ρ p.seed c.producers).sum :=
    (hcounted.screen.displayed hregular.awake).trans hbodies
  have hwriteErrors : l.floor.screen.report.writeErrors =
      setup.sink.refusals ((Pipeline.totals ρ p.seed c.producers).sum + 1) := by
    rw [← hlines]
    exact hcounted.screen.writeErrors
  have hreport : l.floor.report = Pipeline.outcome ρ p.seed c.producers setup.sink := by
    calc l.floor.report
        = ⟨l.floor.seed, l.floor.producers.map Producer.report, l.floor.dispatcher.report,
            l.floor.coEditors.map CoEditor.forwarded,
            ⟨l.floor.screen.report.displayed, l.floor.screen.report.sentinelsReceived,
              l.floor.screen.report.writeErrors⟩⟩ := rfl
      _ = Pipeline.outcome ρ p.seed c.producers setup.sink := by
          rw [seed_of_reachable hreach, produced_of_drained hbuild hreach hdrained, hdispatch,
            hedited, hreceived, hdisplayed, hwriteErrors]
          rfl
  simp only [result?, hphase, hreport]

/-! ### Two launches -/

/-- The number on the articles of a producer, and how many it writes. -/
def duty (spec : ProducerSpec) : UInt32 × UInt64 :=
  (spec.id, spec.messages)

/-- Producers with the same duties and the same seed report the same. -/
theorem written_congr (seed : UInt64) {specs specs' : List ProducerSpec}
    (hsame : specs.map duty = specs'.map duty) :
    Pipeline.written ρ seed specs = Pipeline.written ρ seed specs' := by
  apply List.ext_getElem?
  intro i
  have hi := congrArg (fun ds => ds[i]?) hsame
  simp only [List.getElem?_map] at hi
  rw [Pipeline.getElem?_written, Pipeline.getElem?_written]
  cases hspec : specs[i]? with
  | none =>
      rw [hspec, Option.map_none, eq_comm, Option.map_eq_none_iff] at hi
      rw [hi]
  | some spec =>
      rw [hspec, Option.map_some, eq_comm, Option.map_eq_some_iff] at hi
      obtain ⟨spec', hspec', hduty⟩ := hi
      simp only [duty, Prod.mk.injEq] at hduty
      simp only [hspec', Option.map_some, Pipeline.drawn, hduty]

/-- Of the reports known beforehand only the write errors depend on the display. -/
theorem outcome_congr (seed : UInt64) {specs specs' : List ProducerSpec}
    (hsame : specs.map duty = specs'.map duty) (sink sink' : Sink) :
    (Pipeline.outcome ρ seed specs sink).produced =
        (Pipeline.outcome ρ seed specs' sink').produced ∧
      (Pipeline.outcome ρ seed specs sink).dispatch =
        (Pipeline.outcome ρ seed specs' sink').dispatch ∧
      (Pipeline.outcome ρ seed specs sink).edited = (Pipeline.outcome ρ seed specs' sink').edited ∧
      (Pipeline.outcome ρ seed specs sink).displayed =
        (Pipeline.outcome ρ seed specs' sink').displayed := by
  have hwritten := written_congr (ρ := ρ) seed hsame
  have htotals : Pipeline.totals ρ seed specs = Pipeline.totals ρ seed specs' := by
    rw [Pipeline.totals, hwritten]
    rfl
  have hlength : specs.length = specs'.length := by
    simpa using congrArg List.length hsame
  refine ⟨hwritten, ?_, htotals, congrArg Tally.sum htotals⟩
  simp only [Pipeline.outcome, htotals, hlength]

/-- When nothing is left on the floor, the articles of a producer and a category that
the display was given follow from what the producers report. -/
theorem articlesBy_given_of_drained (hbuild : Pipeline.build c o randomSeed = .ok p)
    (hreach : Schedule.Reachable (step? setup) (ofPipeline p) l) (hdrained : l.floor.Drained)
    (i : Nat) (d : Category) :
    articlesBy i d l.given =
      match (Pipeline.written ρ p.seed c.producers)[i]? with
      | some q => firstArticles i q.id d (q.emitted.get d)
      | none => [] := by
  rw [Pipeline.getElem?_written]
  cases hspec : c.producers[i]? with
  | some spec => exact given_of_drained hbuild hreach hdrained hspec d
  | none =>
      -- an article of this producer would come from outside the configuration
      have hle := List.getElem?_eq_none_iff.1 hspec
      apply List.filter_eq_nil_iff.2
      intro a ha
      have hlt := origin_lt_of_given hbuild hreach (mem_bodies.1 ha)
      simp only [Article.isOf, decide_eq_true_iff, not_and]
      omega

/-- Two launches of producers with the same duties and the same seed show the same
lines, perhaps in another order. -/
theorem perm_given_of_returned {c' : Config} {o' : Overrides} {randomSeed' : UInt64}
    {p' : Pipeline Article} {setup' : Setup} {l' : Launch ρ Article}
    (hbuild : Pipeline.build c o randomSeed = .ok p)
    (hbuild' : Pipeline.build c' o' randomSeed' = .ok p') (hable : setup.failAt = none)
    (hable' : setup'.failAt = none) (hsink : setup.sink.NeverPanics)
    (hsink' : setup'.sink.NeverPanics) (hduties : c.producers.map duty = c'.producers.map duty)
    (hseed : p.seed = p'.seed) (hreach : Schedule.Reachable (step? setup) (ofPipeline p) l)
    (hreach' : Schedule.Reachable (step? setup') (ofPipeline p') l')
    (hreturned : l.result?.isSome = true) (hreturned' : l'.result?.isSome = true) :
    l.given.Perm l'.given := by
  have hregular := regular_of_reachable hable hsink (regular_ofPipeline hbuild) hreach
  have hregular' := regular_of_reachable hable' hsink' (regular_ofPipeline hbuild') hreach'
  obtain ⟨-, hdrained, -⟩ := hregular.drained_of_returned hreturned
  obtain ⟨-, hdrained', -⟩ := hregular'.drained_of_returned hreturned'
  apply perm_of_articlesBy
  · intro i d
    rw [articlesBy_given_of_drained hbuild hreach hdrained,
      articlesBy_given_of_drained hbuild' hreach' hdrained', ← hseed, written_congr _ hduties]
  · rw [countP_isDone_of_returned hbuild hable hsink hreach hreturned,
      countP_isDone_of_returned hbuild' hable' hsink' hreach' hreturned']

end Launch

/-! ### The report in detail -/

variable (ρ : Type) [SeededSource ρ]

/-- What a report says of a configuration with a seed when all of its `n` articles were
written and shown. -/
structure Report.Accounts (r : Report) (c : Config) (seed : UInt64) (n : Nat) : Prop where
  seed_eq : r.seed = seed
  produced_length : r.produced.length = c.producers.length
  /-- Each producer reports its draws, which start from the seed of the launch plus its place,
  as a word. -/
  produced : ∀ (i : Nat) (spec : ProducerSpec), c.producers[i]? = some spec →
    ∃ q, r.produced[i]? = some q ∧ q.id = spec.id ∧
      q.emitted = Tally.ofList
        (draws spec.messages.toNat (SeededSource.ofSeed (seed + UInt64.ofNat i) : ρ)) ∧
      q.emitted.total = .ok spec.messages.toNat
  routed : ∀ d, r.dispatch.routed.get d = exactSum (r.produced.map fun q => q.emitted.get d)
  edited : r.edited = r.dispatch.routed
  dropped : r.dispatch.dropped = 0
  sentinelsReceived : r.dispatch.sentinelsReceived = c.producers.length
  sentinelsSent : r.dispatch.sentinelsSent = 3
  screenSentinels : r.screen.sentinelsReceived = 3
  displayed : r.displayed = n
  producedTotal : r.producedTotal = .ok n
  conserved : r.isConserved = .ok true

/-- The report that is known beforehand accounts for its configuration. -/
theorem Pipeline.outcome_accounts {c : Config} {n : Nat} (htotal : c.totalMessages = .ok n)
    (seed : UInt64) (sink : Sink) :
    (Pipeline.outcome ρ seed c.producers sink).Accounts ρ c seed n := by
  have hsum : exactSum (c.producers.map fun spec => spec.messages.toNat) = n ∧ n < Word.limit := by
    rw [Config.totalMessages, Word.sum_eq] at htotal
    split at htotal
    · cases htotal
      exact ⟨rfl, ‹_›⟩
    · cases htotal
  have htotals : (totals ρ seed c.producers).sum = n := by rw [sum_totals, hsum.1]
  have hproduced : (outcome ρ seed c.producers sink).producedTotal = .ok n := by
    have hwritten :
        exactSum ((outcome ρ seed c.producers sink).produced.map fun q => q.emitted.sum) = n := by
      rw [← hsum.1]
      exact exactSum_written ρ seed c.producers
    rw [Report.producedTotal_eq_ok (by rw [hwritten]; exact hsum.2), hwritten]
  exact
    { seed_eq := rfl
      produced_length := by simp [outcome, written]
      produced := fun i spec hspec => by
        refine ⟨⟨spec.id, drawn ρ seed i spec⟩, ?_, rfl, rfl, ?_⟩
        · show (written ρ seed c.producers)[i]? = _
          rw [getElem?_written, hspec]
          rfl
        · rw [Tally.total_eq_ok, sum_drawn]
          rw [sum_drawn]
          exact spec.messages.toNat_lt
      routed := get_totals ρ seed c.producers
      edited := rfl
      dropped := rfl
      sentinelsReceived := rfl
      sentinelsSent := rfl
      screenSentinels := rfl
      displayed := htotals
      producedTotal := hproduced
      conserved := Report.isConserved_eq_ok hsum.2 hproduced htotals rfl rfl htotals }

namespace Launch

variable {ρ : Type} [SeededSource ρ] {c : Config} {o : Overrides} {randomSeed : UInt64}
  {p : Pipeline Article} {setup : Setup}

/-- The report of a launch follows from its producers and its seed.  Every launch can
return, and what it returns accounts for all articles of its configuration.  Another
launch of producers with the same duties and the same seed has the same counts and
shows the same lines, whatever the capacities, the displays and the order of steps. -/
theorem report_of_seed {n : Nat} (hbuild : Pipeline.build c o randomSeed = .ok p)
    (htotal : c.totalMessages = .ok n) (hable : setup.failAt = none)
    (hsink : setup.sink.NeverPanics) :
    (∀ l : Launch ρ Article, Schedule.Reachable (step? setup) (ofPipeline p) l →
      (∃ l', Schedule.Reachable (step? setup) l l' ∧ l'.result?.isSome = true) ∧
      ∀ r, l.result? = some r → ∃ report, r = .ok report ∧ report.Accounts ρ c p.seed n ∧
        report.screen.writeErrors = setup.sink.refusals l.given.length) ∧
    ∀ (c' : Config) (o' : Overrides) (randomSeed' : UInt64) (p' : Pipeline Article)
      (setup' : Setup), Pipeline.build c' o' randomSeed' = .ok p' → setup'.failAt = none →
      setup'.sink.NeverPanics → c.producers.map duty = c'.producers.map duty → p.seed = p'.seed →
      ∀ (l l' : Launch ρ Article) report report',
        Schedule.Reachable (step? setup) (ofPipeline p) l →
        Schedule.Reachable (step? setup') (ofPipeline p') l' →
        l.result? = some (.ok report) → l'.result? = some (.ok report') →
        report.produced = report'.produced ∧ report.dispatch = report'.dispatch ∧
          report.edited = report'.edited ∧ report.displayed = report'.displayed ∧
          (l.given.map Message.text).Perm (l'.given.map Message.text) := by
  constructor
  · intro l hreach
    constructor
    · have hregular := regular_of_reachable hable hsink (regular_ofPipeline hbuild) hreach
      obtain ⟨l', hreach', hphase, -⟩ := hregular.exists_complete hable hsink
      exact ⟨l', hreach', by simp [result?, hphase]⟩
    · intro r hr
      obtain ⟨hresult, hlines⟩ := result?_eq_outcome hbuild hable hsink hreach (by simp [hr])
      rw [hr, Option.some.injEq] at hresult
      refine ⟨_, hresult, Pipeline.outcome_accounts ρ htotal p.seed setup.sink, ?_⟩
      rw [hlines]
      rfl
  · intro c' o' randomSeed' p' setup' hbuild' hable' hsink' hduties hseed l l' report report'
      hreach hreach' hr hr'
    have hreturned : l.result?.isSome = true := by simp [hr]
    have hreturned' : l'.result?.isSome = true := by simp [hr']
    have hresult := (result?_eq_outcome hbuild hable hsink hreach hreturned).1
    have hresult' := (result?_eq_outcome hbuild' hable' hsink' hreach' hreturned').1
    cases hr.symm.trans hresult
    cases hr'.symm.trans hresult'
    have hperm := perm_given_of_returned hbuild hbuild' hable hable' hsink hsink' hduties hseed
      hreach hreach' hreturned hreturned'
    obtain ⟨hproduced, hdispatch, hedited, hdisplayed⟩ :=
      outcome_congr (ρ := ρ) p.seed hduties setup.sink setup'.sink
    rw [hseed] at hproduced hdispatch hedited hdisplayed ⊢
    exact ⟨hproduced, hdispatch, hedited, hdisplayed, hperm.map Message.text⟩

/-- A run of the newsroom of two producers from its start to its end. -/
def duetRun : List Move :=
  List.replicate 8 .launcher ++ wayOf 0 .sports ++ wayOf 1 .news ++
    [.stage (.producer 0), .stage (.producer 0), .stage (.producer 1), .stage (.producer 1)] ++
    List.replicate 7 (.stage .dispatcher) ++ lastWay ++ List.replicate 8 .launcher

/-- With the seed 5 the second producer draws from the seed 6, which makes it write of news.  The
display may refuse every line. -/
theorem report_of_seed_duet :
    ∃ (l : Launch Generator Article) (report : Report),
      Schedule.run? (step? { sink := fun _ => .refuse .tryAgain }) (ofPipeline Pipeline.duet)
        duetRun = some l ∧
      l.result? = some (.ok report) ∧ report.Accounts Generator Config.duet 5 2 ∧
      report.produced[1]? = some ⟨2, ⟨0, 1, 0⟩⟩ := by
  have hpossible : ((Schedule.run? (step? { sink := fun _ => .refuse .tryAgain })
      (ofPipeline Pipeline.duet : Launch Generator Article) duetRun).any
        fun l => l.result?.isSome) = true := by
    decide +kernel
  obtain ⟨l, hrun, hreturned⟩ := (Option.any_eq_true _ _).1 hpossible
  obtain ⟨r, hr⟩ := Option.isSome_iff_exists.1 hreturned
  have hlaunch := (report_of_seed (n := 2) Pipeline.build_duet rfl rfl fun _ h => by cases h).1 l
    (Schedule.reachable_run? .start hrun)
  obtain ⟨report, rfl, haccounts, -⟩ := hlaunch.2 r hr
  refine ⟨l, report, hrun, hr, haccounts, ?_⟩
  obtain ⟨⟨id, emitted⟩, hsecond, rfl, hemitted, -⟩ := haccounts.produced 1 ⟨2, 1, 1⟩ rfl
  have hdraws : Tally.ofList (draws 1 (Generator.ofSeed 6)) = ⟨0, 1, 0⟩ := by decide +kernel
  rw [hsecond]
  exact congrArg (fun t => some (Producer.Report.mk 2 t)) (hemitted.trans hdraws)

end Launch

end Newsroom
